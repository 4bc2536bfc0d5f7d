import CppPrinter.Proofs.Mention.Expr
import CppPrinter.Proofs.Sharing.Stmt
import CppPrinter.Proofs.Stmt.Carry

/-!
# What the lines of a statement refer to

A declaration with an initial value refers to what the value mentions (`Env.declare_cites`,
`Env.constant_cites`). Where all expressions mention certain resources alone, no line of a statement
refers to others, however deep the statement nests (`Stmt.bodyLines_keeps`).
-/

namespace CppPrinter

/-! ### Declarations -/

namespace Env

/-- The identifiers of the resources that an expression mentions. -/
def mentioned (env : Env) (id : ExprId) : Set String := (env.exprs.tree id).mentioned

/-- The identifiers of the resources that a value mentions, if there is one. -/
def valueMentioned (env : Env) (value : Option ExprId) : Set String :=
  {x | ∃ id ∈ value, x ∈ env.mentioned id}

@[simp] theorem valueMentioned_none (env : Env) : env.valueMentioned none = ∅ := by
  simp [valueMentioned]

@[simp] theorem valueMentioned_some (env : Env) (id : ExprId) :
    env.valueMentioned (some id) = env.mentioned id := by
  simp [valueMentioned]

variable {env : Env} (names : env.EveryName IsOrdinary)

include names

theorem text_cites (id : ExprId) (form : Form) :
    Gives (Cites · (env.mentioned id)) (env.text id form) := by
  rw [Env.text_eq]
  exact Expr.text_cites names.scope (names.tree id) form .statement

theorem plain_cites (id : ExprId) : Gives (Cites · (env.mentioned id)) (env.plain id) :=
  text_cites names id .plain

theorem coerced_cites (target : Ty) (id : ExprId) :
    Gives (Cites · (env.mentioned id)) (env.coerced target id) :=
  text_cites names id (.coerced target)

omit names in
/-- An inline array starts with a literal. -/
theorem mentioned_of_literal {id : ExprId} {n : Node ExprId} {value : Literal}
    (found : env.exprs.node id = .ok n) (isLiteral : n.literal? = some value) :
    env.mentioned id = ∅ := by
  have looked := env.exprs.literal?_node id
  rw [found] at looked
  have literal : (env.exprs.tree id).literal? = .ok (some value) := by
    rw [← looked, ← isLiteral]
    rfl
  exact Expr.mentioned_of_literal? literal

theorem initializer_cites (name : String) (ty : Ty) (value : Option ExprId) :
    Gives (fun text => Cites text (env.valueMentioned value) ∧ IsFresh text)
      (env.initializer name ty value) := by
  have behind : ∀ lead, IsJoint lead → ∀ {text : String} {S : Set String}, Cites text S →
      Cites (lead ++ text) S ∧ IsFresh (lead ++ text) := fun lead fixed text S cites =>
    ⟨cites.headed fixed.toIsLead, fixed.fresh.append fixed.filled text⟩
  unfold initializer
  split
  · exact .ok ⟨(Cites.of_plain (by decide)).congr (valueMentioned_none env).symm, by decide⟩
  · rename_i id
    intro text given
    obtain ⟨n, found, given⟩ := bind_eq_ok_iff.1 given
    split at given
    · rename_i value isLiteral
      split at given
      · rw [valueMentioned_some, mentioned_of_literal found isLiteral]
        cases given
        exact ⟨.of_plain (by decide), by decide⟩
      · cases given
    · cases given
  · rw [valueMentioned_some]
    exact (coerced_cites names _ _).bind fun text cites =>
      .ok ⟨(behind _ (by decide) cites).1.followed (by decide),
        (behind _ (by decide) cites).2.append (by simp) _⟩
  · rw [valueMentioned_some]
    exact (coerced_cites names _ _).bind fun _ cites => .ok (behind _ (by decide) cites)

theorem declare_cites {name : String} (h : Cites name ∅) (ty : Ty) (value : Option ExprId) :
    Gives (Cites · (env.valueMentioned value)) (env.declare name ty value) :=
  (ty.declaration_cites names.scope h).bind fun _ declared =>
    (initializer_cites names name ty value).bind fun _ initial =>
      .ok ((declared.append initial.1 (.inr initial.2)).congr (Set.empty_union _))

theorem constant_cites {name : String} (h : Cites name ∅) (ty : Ty) (value : ExprId) :
    Gives (Cites · (env.mentioned value)) (env.constant name ty value) :=
  (ty.declaration_cites names.scope h).bind fun _ declared =>
    (plain_cites names value).bind fun _ cites =>
      .ok ((cites.behind (by decide) (declared.headed (by decide))).followed (by decide))

theorem returned_cites (returnType : Option Ty) (id : ExprId) :
    Gives (Cites · (env.mentioned id)) (env.returned returnType id) := by
  cases returnType with
  | none => exact plain_cites names id
  | some ty => exact coerced_cites names ty id

end Env

/-! ### Lines -/

/-- A line with such a text is read back. -/
theorem Cites.isWhole {text : String} {S : Set String} (h : Cites text S) :
    (Line.flush text).IsWhole := Line.IsSmooth.isWhole h.smooth

/-- The text refers to some of the identifiers and to no others. -/
def Within (ids : Set String) (text : String) : Prop := ∃ S ⊆ ids, Cites text S

namespace Within

variable {ids : Set String} {text next lead tail joint : String}

theorem of_silent (h : Cites text ∅) : Within ids text := ⟨∅, Set.empty_subset ids, h⟩

theorem of_plain (h : IsPlain text) : Within ids text := .of_silent (.of_plain h)

theorem followed (h : Within ids text) (fixed : IsTail tail) : Within ids (text ++ tail) := by
  obtain ⟨S, inside, cites⟩ := h
  exact ⟨S, inside, cites.followed fixed⟩

theorem headed (h : Within ids text) (fixed : IsLead lead) : Within ids (lead ++ text) := by
  obtain ⟨S, inside, cites⟩ := h
  exact ⟨S, inside, cites.headed fixed⟩

theorem joined (h : Within ids text) (fixed : IsJoint joint) (h' : Within ids next) :
    Within ids (text ++ joint ++ next) := by
  obtain ⟨S, inside, cites⟩ := h
  obtain ⟨T, inside', cites'⟩ := h'
  exact ⟨S ∪ T, Set.union_subset inside inside', cites.joined fixed cites'⟩

end Within

/-- The words of a statement refer to nothing. -/
theorem Within.framing (ids : Set String) : Framing (Within ids) where
  alone text listed := .of_plain (by
    revert text listed
    decide +kernel)
  headed lead listed _ h := h.headed (by
    revert lead listed
    decide +kernel)
  followed tail listed _ h := h.followed (by
    revert tail listed
    decide +kernel)
  joined joint listed _ _ h h' := h.joined (by
    revert joint listed
    decide) h'

/-- Whatever the lines refer to is one of the identifiers. -/
def Keeps (ids : Set String) (ls : List Line) : Prop :=
  ∀ line ∈ ls, line.IsWhole ∧ ∀ id ∈ references line.contents, id ∈ ids

namespace Keeps

variable {ids : Set String} {ls ms : List Line} {text : String}

theorem nil : Keeps ids [] := List.forall_mem_nil _

theorem append (h : Keeps ids ls) (h' : Keeps ids ms) : Keeps ids (ls ++ ms) :=
  List.forall_mem_append.2 ⟨h, h'⟩

theorem line (h : Within ids text) : Keeps ids [.flush text] := by
  obtain ⟨S, inside, cites⟩ := h
  exact List.forall_mem_singleton.2
    ⟨cites.isWhole, fun id member => inside ((cites.exact id).1 member)⟩

theorem blank : Keeps ids [.blank] := List.forall_mem_singleton.2 ⟨Line.isWhole_blank, nofun⟩

theorem cons {l : Line} (h : Keeps ids [l]) (h' : Keeps ids ls) : Keeps ids (l :: ls) := h.append h'

theorem indented (h : Keeps ids ls) : Keeps ids (indented ls) := by
  refine List.forall_mem_map.2 fun line member => ?_
  obtain ⟨whole, inside⟩ := h line member
  exact ⟨whole.indent, by rwa [Line.contents_indent]⟩

theorem braced (h : Keeps ids ls) : Keeps ids (braced ls) :=
  (line (.of_plain (by decide))).cons (h.indented.append (line (.of_plain (by decide))))

/-- A brace block below a line, both below an empty one. -/
theorem body (first : Within ids text) (h : Keeps ids ls) :
    Keeps ids ([Line.blank, .flush text] ++ CppPrinter.braced ls) :=
  (blank.append (line first)).append h.braced

theorem of_each (each : ∀ l ∈ ls, Keeps ids [l]) : Keeps ids ls := fun line member =>
  each line member line (List.mem_singleton_self line)

theorem flatten {groups : List (List Line)} (each : ∀ ls ∈ groups, Keeps ids ls) :
    Keeps ids groups.flatten := by
  intro line member
  obtain ⟨ls, listed, inside⟩ := List.mem_flatten.1 member
  exact each ls listed line inside

end Keeps

/-- What carries texts that refer to the identifiers alone refers to them alone. -/
theorem Carry.keeps {ids : Set String} {ls : List Line} (h : Carry (Within ids) ls) : Keeps ids ls := by
  intro l member
  have carried := h l member
  cases l with
  | blank => exact carried.elim
  | code depth text =>
    obtain ⟨S, inside, cites⟩ := carried
    have smooth : (Line.code depth text).IsSmooth := cites.smooth
    exact ⟨smooth.isWhole, fun id cited => inside ((cites.exact id).1 cited)⟩

/-! ### Statements -/

section Statements

variable {env : Env} {returnType : Option Ty} {ids : Set String} (names : env.EveryName IsOrdinary)
  (declared : ∀ id, env.mentioned id ⊆ ids)

include names declared

theorem Env.supplies_within : env.Supplies returnType IsOrdinary (Within ids) where
  plain id := (plain_cites names id).mono fun _ cites => ⟨_, declared id, cites⟩
  returned id := (returned_cites names returnType id).mono fun _ cites => ⟨_, declared id, cites⟩
  declare h ty value := by
    have subset : env.valueMentioned value ⊆ ids := by
      rintro x ⟨id, -, member⟩
      exact declared id member
    exact (declare_cites names (.ordinary h) ty value).mono fun _ cites => ⟨_, subset, cites⟩
  constant h ty value :=
    (constant_cites names (.ordinary h) ty value).mono fun _ cites => ⟨_, declared value, cites⟩

namespace Stmt

theorem bodyLines_keeps {body : List (Stmt ExprId)} (locals : ∀ s ∈ body, s.EveryName IsOrdinary) :
    Gives (Keeps ids) (bodyLines env returnType body) :=
  (bodyLines_carry (Within.framing ids) (Env.supplies_within names declared) locals).mono
    fun _ => Carry.keeps

end Stmt

end Statements

end CppPrinter
