import CppPrinter.Proofs.Bracket.Class
import CppPrinter.Proofs.Stmt.Emission
import Mathlib.Logic.Function.Iterate

/-!
# The scope of a name declared in a switch

All cases of a switch share one scope, unless a case opens a block. What is written below the labels of a
case is a list of parts here (`CasePart`): its statements, and the lines that open and close a block. A
count of the blocks that are open goes along with the parts (`CasePart.openBlocks?`), and the text leaves
as many braces open (`CasePart.lays`). The loop over the statements (`caseParts`) opens its block at the
first variable (`exists_block_iff`) and closes it behind the last statement (`openBlocks?_caseParts`).

So a variable stands in a block of its case. A constant array is declared in the same place, but no block
is opened for it: it stands in one exactly if a variable is declared in front of it
(`case_declarations_enclosed_iff`), and otherwise in the scope of the whole switch, where the name may be
that of an array of another case (`outerCases_not_enclosed`).
-/

namespace CppPrinter

namespace Stmt

variable {ρ : Type}

/-- Is printed as the declaration of a name: a variable, or a constant array. Other constants are folded
into their uses. -/
def declares : Stmt ρ → Bool
  | declare .. => true
  | constant _ ty _ => ty.isArrayStorage
  | _ => false

@[simp] theorem isVariable_constant (name : String) (ty : Ty) (value : ρ) :
    (constant name ty value).isVariable = false := rfl

@[simp] theorem declares_constant (name : String) (ty : Ty) (value : ρ) :
    (constant name ty value).declares = ty.isArrayStorage := rfl

end Stmt

/-! ### What is written below the labels -/

/-- A part of what is written below the labels of a case. -/
inductive CasePart where
  /-- The line that opens a block. -/
  | opening
  /-- A statement and its layout. -/
  | statement (s : Stmt ExprId) (f : Fragment)
  /-- The line that closes a block. -/
  | closing

namespace CasePart

/-- The statement with its layout. -/
def statement? : CasePart → Option (Stmt ExprId × Fragment)
  | statement s f => some (s, f)
  | _ => none

theorem eq_of_statement? {p : CasePart} {s : Stmt ExprId} {f : Fragment}
    (h : p.statement? = some (s, f)) : p = statement s f := by
  cases p with
  | statement t g =>
    cases h
    rfl
  | _ => cases h

/-- The lines of the parts, where `k` blocks are open in front of them. -/
def layout : Nat → List CasePart → List Line
  | _, [] => []
  | k, opening :: rest => indented^[k + 1] [Line.flush "\x7b"] ++ layout (k + 1) rest
  | k, statement _ f :: rest => indented^[k + 1] f.lines ++ layout k rest
  | k, closing :: rest => indented^[k] [Line.flush "\x7d"] ++ layout (k - 1) rest

/-- The number of blocks that are open behind the parts, where `k` are in front of them. -/
def openBlocks? : Nat → List CasePart → Option Nat
  | k, [] => some k
  | k, opening :: rest => openBlocks? (k + 1) rest
  | k, statement .. :: rest => openBlocks? k rest
  | 0, closing :: _ => none
  | k + 1, closing :: rest => openBlocks? k rest

theorem openBlocks?_append (k : Nat) (ps qs : List CasePart) :
    openBlocks? k (ps ++ qs) = (openBlocks? k ps).bind (openBlocks? · qs) := by
  induction ps generalizing k with
  | nil => rfl
  | cons p rest ih =>
    cases p with
    | opening => exact ih (k + 1)
    | statement => exact ih k
    | closing =>
      cases k with
      | zero => rfl
      | succ k => exact ih k

/-- Where nothing is closed that is not open, each part has a number of open blocks in front of it. -/
theorem exists_openBlocks? {k n : Nat} {ps qs : List CasePart}
    (h : openBlocks? k (ps ++ qs) = some n) : ∃ m, openBlocks? k ps = some m := by
  rw [openBlocks?_append] at h
  obtain ⟨m, found, -⟩ := Option.bind_eq_some_iff.1 h
  exact ⟨m, found⟩

theorem lays_iterate {s t : List Char} {ls : List Line} (h : Lays s ls t) (n : Nat) :
    Lays s (indented^[n] ls) t := by
  induction n with
  | zero => exact h
  | succ n ih =>
    rw [Function.iterate_succ_apply']
    exact ih.indented

/-- The text of the parts leaves as many braces open as the count says. -/
theorem lays {k n : Nat} {ps : List CasePart} (counted : openBlocks? k ps = some n)
    (closed : ∀ p ∈ ps.filterMap statement?, p.2.IsClosed) :
    Lays (List.replicate k '\x7d') (layout k ps) (List.replicate n '\x7d') := by
  induction ps generalizing k with
  | nil =>
    cases counted
    exact .nil
  | cons p rest ih =>
    cases p with
    | opening =>
      have brace : Lays [] [.flush "\x7b"] ['\x7d'] := .line (by decide)
      exact ((lays_iterate brace (k + 1)).frame (List.replicate k '\x7d')).append (ih counted closed)
    | statement s f =>
      obtain ⟨here, later⟩ := List.forall_mem_cons.1 closed
      exact ((lays_iterate here.lays (k + 1)).frame (List.replicate k '\x7d')).append (ih counted later)
    | closing =>
      cases k with
      | zero => cases counted
      | succ k =>
        have brace : Lays ['\x7d'] [.flush "\x7d"] [] := .line (by decide)
        exact ((lays_iterate brace (k + 1)).frame (List.replicate k '\x7d')).append (ih counted closed)

end CasePart

/-- The loop over the statements of a case. `block` says whether the block is open already. -/
def caseParts : Bool → List (Stmt ExprId × Fragment) → List CasePart
  | block, [] => if block then [.closing] else []
  | block, (s, f) :: rest =>
    (if !block && s.isVariable then [.opening] else []) ++
      .statement s f :: caseParts (block || s.isVariable) rest

section Loop

variable {s : Stmt ExprId} {f : Fragment} {ps : List (Stmt ExprId × Fragment)}

theorem caseParts_opened (s : Stmt ExprId) (f : Fragment) (ps : List (Stmt ExprId × Fragment)) :
    caseParts true ((s, f) :: ps) = .statement s f :: caseParts true ps := rfl

theorem caseParts_variable (h : s.isVariable = true) :
    caseParts false ((s, f) :: ps) = .opening :: .statement s f :: caseParts true ps := by
  simp [caseParts, h]

theorem caseParts_other (h : s.isVariable = false) :
    caseParts false ((s, f) :: ps) = .statement s f :: caseParts false ps := by
  simp [caseParts, h]

/-- The loop writes the statements in order. -/
theorem statements_caseParts (block : Bool) (ps : List (Stmt ExprId × Fragment)) :
    (caseParts block ps).filterMap CasePart.statement? = ps := by
  induction ps generalizing block with
  | nil => cases block <;> rfl
  | cons p rest ih =>
    have opener : (if !block && p.1.isVariable then [CasePart.opening] else []).filterMap
        CasePart.statement? = [] := by
      split <;> rfl
    rw [caseParts, List.filterMap_append, opener, List.nil_append, List.filterMap_cons,
      CasePart.statement?, ih]

/-- The loop closes the block that it opens. -/
theorem openBlocks?_caseParts (block : Bool) (ps : List (Stmt ExprId × Fragment)) :
    CasePart.openBlocks? block.toNat (caseParts block ps) = some 0 := by
  induction ps generalizing block with
  | nil => cases block <;> rfl
  | cons p rest ih =>
    obtain ⟨s, f⟩ := p
    cases block with
    | true => exact ih true
    | false =>
      cases declared : s.isVariable with
      | true =>
        rw [caseParts_variable declared]
        exact ih true
      | false =>
        rw [caseParts_other declared]
        exact ih false

/-- In front of a statement the block is open if it was so from the start, or if the statement or one in
front of it is a variable. -/
theorem openBlocks?_caseParts_before {block : Bool} {before after : List CasePart}
    (h : caseParts block ps = before ++ .statement s f :: after) :
    CasePart.openBlocks? block.toNat before =
      some (block || (before.filterMap CasePart.statement?).any (·.1.isVariable) ||
        s.isVariable).toNat := by
  induction ps generalizing block before with
  | nil =>
    have listed : CasePart.statement s f ∈ caseParts block [] := by simp [h]
    cases block <;> simp [caseParts] at listed
  | cons p rest ih =>
    obtain ⟨t, g⟩ := p
    cases block with
    | true =>
      rw [caseParts_opened] at h
      cases before with
      | nil => rfl
      | cons part before =>
        obtain ⟨rfl, later⟩ := List.cons.inj h
        simpa [CasePart.openBlocks?] using ih later
    | false =>
      -- A variable comes with a part of its own, the line that opens the block.
      cases declared : t.isVariable with
      | true =>
        rw [caseParts_variable declared] at h
        match before, h with
        | [.opening], h =>
          obtain ⟨⟨rfl, rfl⟩, -⟩ := by simpa using h
          simp [CasePart.openBlocks?, declared]
        | .opening :: .statement _ _ :: before, h =>
          obtain ⟨⟨rfl, rfl⟩, later⟩ := by simpa using h
          simpa [CasePart.openBlocks?, CasePart.statement?, declared] using ih later
      | false =>
        rw [caseParts_other declared] at h
        cases before with
        | nil =>
          obtain ⟨⟨rfl, rfl⟩, -⟩ := by simpa using h
          simp [CasePart.openBlocks?, declared]
        | cons part before =>
          obtain ⟨rfl, later⟩ := List.cons.inj h
          simpa [CasePart.openBlocks?, CasePart.statement?, declared] using ih later

/-- A statement stands in a block exactly if it, or one in front of it, is a variable. -/
theorem exists_block_iff {before after : List CasePart}
    (h : caseParts false ps = before ++ .statement s f :: after) :
    (∃ k, CasePart.openBlocks? 0 before = some (k + 1)) ↔
      s.isVariable = true ∨ ∃ p ∈ before.filterMap CasePart.statement?, p.1.isVariable = true := by
  have counted := openBlocks?_caseParts_before h
  rw [Bool.toNat_false, Bool.false_or, Bool.or_comm] at counted
  rw [counted, ← List.any_eq_true, ← Bool.or_eq_true]
  cases s.isVariable || (before.filterMap CasePart.statement?).any (·.1.isVariable) <;> simp

/-- Each statement of the loop is a part with the statements in front of it. -/
theorem exists_before (block : Bool) (front back : List (Stmt ExprId × Fragment)) (s : Stmt ExprId)
    (f : Fragment) : ∃ before after,
      caseParts block (front ++ (s, f) :: back) = before ++ CasePart.statement s f :: after ∧
        before.filterMap CasePart.statement? = front := by
  have written := statements_caseParts block (front ++ (s, f) :: back)
  obtain ⟨first, rest, parts, rfl, second⟩ := List.filterMap_eq_append_iff.1 written
  obtain ⟨skipped, part, after, rfl, others, here, -⟩ := List.filterMap_eq_cons_iff.1 second
  obtain rfl := CasePart.eq_of_statement? here
  refine ⟨first ++ skipped, after, by simpa using parts, ?_⟩
  rw [List.filterMap_append, List.filterMap_eq_nil_iff.2 others, List.append_nil]

/-- Behind the first variable, everything stands in the block. -/
theorem layout_caseParts_true (ps : List (Stmt ExprId × Fragment)) :
    CasePart.layout 1 (caseParts true ps) =
      indented (indented (ps.flatMap fun p => p.2.lines) ++ [Line.flush "\x7d"]) := by
  induction ps with
  | nil => rfl
  | cons p rest ih =>
    rw [caseParts_opened, CasePart.layout, ih]
    simp [indented]

/-- The layout of a case is what the loop over its statements writes. -/
theorem layout_caseParts (same : ∀ p ∈ ps, p.2.isDeclaration = p.1.isVariable) :
    CasePart.layout 0 (caseParts false ps) = Fragment.caseBody (ps.map Prod.snd) := by
  induction ps with
  | nil => rfl
  | cons p rest ih =>
    obtain ⟨s, f⟩ := p
    obtain ⟨here, later⟩ := List.forall_mem_cons.1 same
    cases declared : s.isVariable with
    | true =>
      rw [caseParts_variable declared, CasePart.layout, CasePart.layout, layout_caseParts_true,
        List.map_cons, Fragment.caseBody_declared (here.trans declared)]
      simp [indented, braced, List.flatMap_map]
    | false =>
      rw [caseParts_other declared, CasePart.layout, ih later, List.map_cons,
        Fragment.caseBody_other (here.trans declared)]
      rfl

end Loop

/-! ### The cases of a switch -/

/-- What is written for one case. -/
structure CaseGroup where
  labels : List Line
  parts : List CasePart

namespace CaseGroup

def lines (g : CaseGroup) : List Line := g.labels ++ CasePart.layout 0 g.parts

/-- Every declaration stands in a block of the case. -/
def Encloses (g : CaseGroup) : Prop :=
  ∀ before s f after, g.parts = before ++ CasePart.statement s f :: after → s.declares = true →
    ∃ k, CasePart.openBlocks? 0 before = some (k + 1)

/-- The text of the case has as many open braces in front of each part as blocks are counted. -/
def Reads (g : CaseGroup) : Prop :=
  Lays [] g.labels [] ∧ ∀ before after, g.parts = before ++ after →
    ∃ k, CasePart.openBlocks? 0 before = some k ∧
      Lays [] (CasePart.layout 0 before) (List.replicate k '\x7d')

end CaseGroup

namespace Stmt

variable {ρ : Type}

/-- Every constant array stands behind a variable. -/
def ConstantsFollowVariable (body : List (Stmt ρ)) : Prop :=
  ∀ front name ty value back, body = front ++ Stmt.constant name ty value :: back →
    ty.isArrayStorage = true → ∃ s ∈ front, s.isVariable = true

/-- No constant array stands in front of the first variable. -/
theorem constantsFollowVariable_iff {body : List (Stmt ρ)} : ConstantsFollowVariable body ↔
    ∀ s ∈ body.takeWhile (!·.isVariable), s.declares = false := by
  constructor
  · intro follow s member
    obtain ⟨front, back, split⟩ := List.append_of_mem member
    have whole : body = front ++ s :: (back ++ body.dropWhile (!·.isVariable)) := by
      rw [← List.cons_append, ← List.append_assoc, ← split, List.takeWhile_append_dropWhile]
    have plain : ∀ t ∈ front ++ s :: back, t.isVariable = false := by
      rw [← split]
      exact fun t inFront => by simpa using List.mem_takeWhile_imp inFront
    cases s with
    | declare name ty value =>
      have here := plain (declare name ty value) (List.mem_append_right _ List.mem_cons_self)
      cases here
    | constant name ty value =>
      by_contra storage
      obtain ⟨t, inFront, isVar⟩ := follow front name ty value _ whole (by simpa using storage)
      rw [plain t (List.mem_append_left _ inFront)] at isVar
      cases isVar
    | _ => rfl
  · rintro plainFront front name ty value back rfl storage
    by_contra noVariable
    have plain : ∀ t ∈ front, (!t.isVariable) = true := by simpa using noVariable
    have member : constant name ty value ∈
        (front ++ constant name ty value :: back).takeWhile (!·.isVariable) := by
      rw [List.takeWhile_append_of_pos plain]
      simp
    exact Bool.false_ne_true ((plainFront _ member).symm.trans storage)

instance (body : List (Stmt ρ)) : Decidable (ConstantsFollowVariable body) :=
  decidable_of_iff _ constantsFollowVariable_iff.symm

/-- The cases of a switch, and the default as one without a list of labels. -/
def switchGroups (cases : List (List ρ × List (Stmt ρ))) (otherwise : Option (List (Stmt ρ))) :
    List (Option (List ρ) × List (Stmt ρ)) :=
  cases.map (fun group => (some group.1, group.2)) ++ otherwise.toList.map fun body => (none, body)

theorem mem_children_of_mem_switchGroups {value : ρ} {cases : List (List ρ × List (Stmt ρ))}
    {otherwise : Option (List (Stmt ρ))} {source : Option (List ρ) × List (Stmt ρ)}
    (member : source ∈ switchGroups cases otherwise) {s : Stmt ρ} (inBody : s ∈ source.2) :
    s ∈ (switch value cases otherwise).children := by
  rcases List.mem_append.1 member with labelled | remaining
  · obtain ⟨group, listed, rfl⟩ := List.mem_map.1 labelled
    exact List.mem_append_left _ (List.mem_flatMap.2 ⟨group, listed, inBody⟩)
  · obtain ⟨body, given, rfl⟩ := List.mem_map.1 remaining
    obtain rfl := Option.mem_toList.1 given
    exact List.mem_append_right _ inBody

end Stmt

/-- The lines of the labels of a case, or of the default. -/
def Env.groupLabels (env : Env) : Option (List ExprId) → Rendered (List Line)
  | some ids => env.labels ids
  | none => .ok [.flush "default:"]

theorem Env.groupLabels_lay {env : Env} (named : env.EveryName IsIdentifier) (ids? : Option (List ExprId)) :
    Gives (Lays [] · []) (env.groupLabels ids?) := by
  cases ids? with
  | some ids => exact Env.labels_lay named ids
  | none => exact .ok (.line (by decide))

namespace Stmt

variable (env : Env) (returnType : Option Ty)

/-- What is written for a case. -/
def caseGroup (group : Option (List ExprId) × List (Stmt ExprId)) : Rendered CaseGroup := do
  let labels ← env.groupLabels group.1
  let fs ← group.2.mapM (render env returnType)
  return ⟨labels, caseParts false (group.2.zip fs)⟩

/-- The lines of a case are its labels and the layout of its statements. -/
theorem lines_caseGroup (labels : Option (List ExprId)) (body : List (Stmt ExprId)) :
    (do return (← caseGroup env returnType (labels, body)).lines) = (do
      let heads ← env.groupLabels labels
      return heads ++ Fragment.caseBody (← renderAll env returnType body) : Rendered (List Line)) := by
  rw [caseGroup, renderAll_eq_mapM]
  cases env.groupLabels labels with
  | error e => rfl
  | ok heads =>
    cases printed : body.mapM (render env returnType) with
    | error e => rfl
    | ok fs =>
      have each := mapM_eq_ok_iff.1 printed
      have same : ∀ p ∈ body.zip fs, p.2.isDeclaration = p.1.isVariable := fun p member =>
        (render_kind env returnType p.1 p.2 (List.forall₂_zip each member)).1
      simp [CaseGroup.lines, layout_caseParts same, List.map_snd_zip each.length_eq.ge]

theorem renderDefault_eq (otherwise : Option (List (Stmt ExprId))) :
    renderDefault env returnType otherwise = (do
      let groups ← (otherwise.toList.map fun body => (none, body)).mapM (caseGroup env returnType)
      return groups.flatMap CaseGroup.lines) := by
  cases otherwise with
  | none => rfl
  | some body =>
    have whole := lines_caseGroup env returnType none body
    simpa [renderDefault, Env.groupLabels] using whole.symm

theorem renderCases_eq (cases : List (List ExprId × List (Stmt ExprId))) :
    renderCases env returnType cases = (do
      let groups ← (cases.map fun group => (some group.1, group.2)).mapM (caseGroup env returnType)
      return groups.flatMap CaseGroup.lines) := by
  induction cases with
  | nil => rfl
  | cons group rest ih =>
    obtain ⟨labels, body⟩ := group
    have whole := lines_caseGroup env returnType (some labels) body
    have here : renderCases env returnType ((labels, body) :: rest) = (do
        let first ← (do return (← caseGroup env returnType (some labels, body)).lines)
        return first ++ (← renderCases env returnType rest)) := by
      rw [whole]
      simp [renderCases, Env.groupLabels]
    rw [here, ih]
    simp

/-- A switch is its header, its cases in order with the default behind them, and a closing brace. -/
theorem render_switch (value : ExprId) (cases : List (List ExprId × List (Stmt ExprId)))
    (otherwise : Option (List (Stmt ExprId))) :
    (switch value cases otherwise).render env returnType = (do
      let chosen ← env.plain value
      let groups ← (switchGroups cases otherwise).mapM (caseGroup env returnType)
      return .plain (.flush ("switch (" ++ chosen ++ ") \x7b") ::
        (groups.flatMap CaseGroup.lines ++ [Line.flush "\x7d"]))) := by
  rw [render, renderCases_eq, renderDefault_eq, switchGroups]
  simp [List.mapM_append]

/-! ### Declarations and their blocks -/

variable {env returnType}

/-- In the parts that the loop writes, each declaration stands in a block exactly if every constant array
stands behind a variable. -/
theorem encloses_iff {g : CaseGroup} {ps : List (Stmt ExprId × Fragment)}
    (loop : g.parts = caseParts false ps) :
    g.Encloses ↔ ConstantsFollowVariable (ps.map Prod.fst) := by
  constructor
  · intro encloses front name ty value back split storage
    obtain ⟨ps₁, ps₂, rfl, rfl, second⟩ := List.map_eq_append_iff.1 split
    obtain ⟨⟨s, f⟩, ps₃, rfl, rfl, -⟩ := List.map_eq_cons_iff.1 second
    obtain ⟨before, after, parts, rfl⟩ := exists_before false ps₁ ps₃ (.constant name ty value) f
    have block := encloses before _ f after (loop.trans parts) storage
    have covered := (exists_block_iff parts).1 block
    simpa [isVariable] using covered
  · intro follow before s f after parts declared
    have parts := loop.symm.trans parts
    refine (exists_block_iff parts).2 ?_
    have written : ps = before.filterMap CasePart.statement? ++
        (s, f) :: after.filterMap CasePart.statement? := by
      rw [← statements_caseParts false ps, parts, List.filterMap_append, List.filterMap_cons,
        CasePart.statement?]
    cases s with
    | declare name ty value => exact .inl rfl
    | constant name ty value =>
      have inFront := follow ((before.filterMap CasePart.statement?).map Prod.fst) name ty value
        ((after.filterMap CasePart.statement?).map Prod.fst) (by rw [written]; simp) declared
      exact .inr (by simpa using inFront)
    | _ => cases declared

end Stmt

/-- The lines of the case are written for its labels and its statements, each statement as it is printed
by itself. What is opened is closed, and each declaration stands in a block exactly if every constant array
stands behind a variable. -/
structure CaseGroup.IsOf (env : Env) (returnType : Option Ty)
    (source : Option (List ExprId) × List (Stmt ExprId)) (g : CaseGroup) : Prop where
  labels : env.groupLabels source.1 = .ok g.labels
  statements : (g.parts.filterMap CasePart.statement?).map Prod.fst = source.2
  printed : ∀ p ∈ g.parts.filterMap CasePart.statement?, p.1.render env returnType = .ok p.2
  closed : CasePart.openBlocks? 0 g.parts = some 0
  encloses_iff : g.Encloses ↔ Stmt.ConstantsFollowVariable source.2

namespace Stmt

variable {env : Env} {returnType : Option Ty}

theorem caseGroup_isOf (source : Option (List ExprId) × List (Stmt ExprId)) :
    Gives (CaseGroup.IsOf env returnType source) (caseGroup env returnType source) := by
  intro g written
  simp only [caseGroup, bind_eq_ok_iff, pure_eq_ok, Except.ok.injEq] at written
  obtain ⟨labels, printedLabels, fs, printedBody, rfl⟩ := written
  have each := mapM_eq_ok_iff.1 printedBody
  have inOrder : (source.2.zip fs).map Prod.fst = source.2 := List.map_fst_zip each.length_eq.le
  refine ⟨printedLabels, ?_, ?_, openBlocks?_caseParts false _, ?_⟩
  · rw [statements_caseParts, inOrder]
  · rw [statements_caseParts]
    exact fun p member => List.forall₂_zip each member
  · rw [encloses_iff rfl, inOrder]

end Stmt

/-- Where names are identifiers, the braces left open in the text of a case are those of its blocks. -/
theorem CaseGroup.IsOf.reads {env : Env} {returnType : Option Ty} (named : env.EveryName IsIdentifier)
    {source : Option (List ExprId) × List (Stmt ExprId)} (names : ∀ s ∈ source.2, s.EveryName IsIdentifier)
    {g : CaseGroup} (h : g.IsOf env returnType source) : g.Reads := by
  have closed : ∀ p ∈ g.parts.filterMap CasePart.statement?, p.2.IsClosed := by
    intro p member
    have inBody : p.1 ∈ source.2 := h.statements ▸ List.mem_map_of_mem member
    exact Stmt.render_closed named (names p.1 inBody) p.2 (h.printed p member)
  refine ⟨Env.groupLabels_lay named source.1 g.labels h.labels, fun before after split => ?_⟩
  obtain ⟨k, counted⟩ := CasePart.exists_openBlocks? (split ▸ h.closed)
  refine ⟨k, counted, CasePart.lays counted fun p member => closed p ?_⟩
  rw [split, List.filterMap_append]
  exact List.mem_append_left _ member

namespace Stmt

variable {env : Env} {returnType : Option Ty}

theorem exists_of_mem_right {α β : Type} {related : α → β → Prop} {xs : List α} {ys : List β}
    (each : List.Forall₂ related xs ys) {y : β} (member : y ∈ ys) : ∃ x ∈ xs, related x y := by
  induction each with
  | nil => cases member
  | @cons x y' xs ys here _ ih =>
    rcases List.mem_cons.1 member with rfl | later
    · exact ⟨x, List.mem_cons_self, here⟩
    · obtain ⟨x', listed, there⟩ := ih later
      exact ⟨x', List.mem_cons_of_mem x listed, there⟩

/-- A switch that has a layout is written as the lines of it: a line with an opening brace, its cases in
order, the default last, and a closing brace. The statements of a case stand in order below its labels, each
as it is printed by itself, in a block of the case or outside of it, and every block is closed in front of
the next label. Each declaration stands in such a block, a variable or a constant array alike, exactly if
every constant array among the statements of the case stands behind a variable. Where names are identifiers,
the braces that are left open in the text of the case are those of the blocks. -/
theorem case_declarations_enclosed_iff {value : ExprId}
    {cases : List (List ExprId × List (Stmt ExprId))} {otherwise : Option (List (Stmt ExprId))}
    {f : Fragment} (printed : (switch value cases otherwise).render env returnType = .ok f) :
    (∀ w : Writer, w.returnType? = returnType →
      (Emit.statement env (switch value cases otherwise)).run.run w = (.ok (), w.placeLines f.lines)) ∧
    ∃ chosen groups, env.plain value = .ok chosen ∧
      f.lines = .flush ("switch (" ++ chosen ++ ") \x7b") ::
        (groups.flatMap CaseGroup.lines ++ [Line.flush "\x7d"]) ∧
      List.Forall₂ (CaseGroup.IsOf env returnType) (switchGroups cases otherwise) groups ∧
      (env.EveryName IsIdentifier → (switch value cases otherwise).EveryName IsIdentifier →
        ∀ g ∈ groups, g.Reads) := by
  refine ⟨fun w inForce => Emit.run_statement (inForce ▸ printed), ?_⟩
  rw [render_switch] at printed
  simp only [bind_eq_ok_iff, pure_eq_ok, Except.ok.injEq] at printed
  obtain ⟨chosen, printedValue, groups, printedGroups, rfl⟩ := printed
  have each := Gives.forall₂ (fun source _ => caseGroup_isOf source) groups printedGroups
  refine ⟨chosen, groups, printedValue, rfl, each, fun named names g member => ?_⟩
  obtain ⟨source, listed, isOf⟩ := exists_of_mem_right each member
  exact isOf.reads named fun s inBody =>
    names.parts.2 s (mem_children_of_mem_switchGroups listed inBody)

/-! ### Two switches -/

/-- An operation, two numbers and an array of them. -/
def tablesEnv : Env where
  scope := ⟨#[], #[]⟩
  exprs := ⟨#[⟨.symbol (.localName "op"), .i32⟩, ⟨.literal (.int 1), .i32⟩, ⟨.literal (.int 2), .i32⟩,
    ⟨.aggregate [⟨1⟩, ⟨2⟩], .arrayStorage .i32 2⟩]⟩

/-- Declares an array of two numbers. -/
def table (name : String) : Stmt ExprId := .constant name (.arrayStorage .i32 2) ⟨3⟩

/-- Two cases, each with a variable `t` in front of what else it declares. -/
def innerCases : List (List ExprId × List (Stmt ExprId)) :=
  [([⟨1⟩], [.evaluate ⟨0⟩, .declare "t" .i32 (some ⟨2⟩), table "u", .breakLoop]),
    ([⟨2⟩], [.declare "t" .i32 none, .breakLoop])]

def innerLines : List Line :=
  [.flush "switch (op) \x7b", .flush "case 1:", .code 1 "op;", .code 1 "\x7b", .code 2 "int32_t t = 2;",
    .code 2 "static constexpr std::array<int32_t, 2> u = \x7b 1, 2 \x7d;", .code 2 "break;", .code 1 "\x7d",
    .flush "case 2:", .code 1 "\x7b", .code 2 "int32_t t;", .code 2 "break;", .code 1 "\x7d",
    .flush "default:", .code 1 "return;", .flush "\x7d"]

theorem case_declarations_enclosed_iff_innerCases :
    (switch ⟨0⟩ innerCases (some [.ret none])).render tablesEnv none = .ok (.plain innerLines) ∧
      (Emit.statement tablesEnv (switch ⟨0⟩ innerCases (some [.ret none]))).run.run {} =
        (.ok (), Writer.placeLines innerLines {}) ∧
      ∃ groups : List CaseGroup, groups.length = 3 ∧
        innerLines = .flush "switch (op) \x7b" :: (groups.flatMap CaseGroup.lines ++ [Line.flush "\x7d"]) ∧
        ∀ g ∈ groups, g.Encloses ∧ g.Reads := by
  have named : tablesEnv.EveryName IsIdentifier := ⟨⟨nofun, nofun⟩, by decide⟩
  have leaf (s : Stmt ExprId) (single : s.children = [])
      (names : ∀ name ∈ s.name?, IsIdentifier name) : s.EveryName IsIdentifier :=
    .intro names (by simp [single])
  have names : (switch ⟨0⟩ innerCases (some [.ret none])).EveryName IsIdentifier := by
    refine .intro nofun ?_
    simp only [children, innerCases, List.flatMap_cons, List.flatMap_nil, List.append_nil,
      List.cons_append, List.nil_append, Option.getD_some, List.forall_mem_cons]
    refine ⟨leaf _ rfl ?_, leaf _ rfl ?_, leaf _ rfl ?_, leaf _ rfl ?_, leaf _ rfl ?_, leaf _ rfl ?_,
      leaf _ rfl ?_, nofun⟩ <;> decide
  have follow : ∀ source ∈ switchGroups innerCases (some [.ret none]),
      ConstantsFollowVariable source.2 := by decide
  have printed : (switch ⟨0⟩ innerCases (some [.ret none])).render tablesEnv none =
      .ok (.plain innerLines) := rfl
  obtain ⟨written, chosen, groups, value, lines, each, reads⟩ := case_declarations_enclosed_iff printed
  obtain rfl : "op" = chosen := Except.ok.inj value
  refine ⟨printed, written {} rfl, groups, each.length_eq.symm, lines,
    fun g member => ⟨?_, reads named names g member⟩⟩
  obtain ⟨source, listed, isOf⟩ := exists_of_mem_right each member
  exact isOf.encloses_iff.2 (follow source listed)

/-- A constant array of the same name in two cases. -/
def outerCases : List (List ExprId × List (Stmt ExprId)) :=
  [([⟨1⟩], [table "t", .breakLoop]), ([⟨2⟩], [table "t", .breakLoop])]

def outerLines : List Line :=
  [.flush "switch (op) \x7b",
    .flush "case 1:", .code 1 "static constexpr std::array<int32_t, 2> t = \x7b 1, 2 \x7d;", .code 1 "break;",
    .flush "case 2:", .code 1 "static constexpr std::array<int32_t, 2> t = \x7b 1, 2 \x7d;", .code 1 "break;",
    .flush "\x7d"]

/-- Both arrays are declared in the scope of the switch, by the same name. -/
theorem outerCases_not_enclosed :
    (switch ⟨0⟩ outerCases none).render tablesEnv none = .ok (.plain outerLines) ∧
      (Emit.statement tablesEnv (switch ⟨0⟩ outerCases none)).run.run {} =
        (.ok (), Writer.placeLines outerLines {}) ∧
      ∃ groups, (switchGroups outerCases none).mapM (caseGroup tablesEnv none) = .ok groups ∧
        outerLines = .flush "switch (op) \x7b" :: (groups.flatMap CaseGroup.lines ++ [Line.flush "\x7d"]) ∧
        ∀ g ∈ groups, ¬ g.Encloses := by
  have outside : ∀ source ∈ switchGroups outerCases none, ¬ ConstantsFollowVariable source.2 := by
    decide
  have each : Gives (List.Forall₂ (CaseGroup.IsOf tablesEnv none) (switchGroups outerCases none))
      ((switchGroups outerCases none).mapM (caseGroup tablesEnv none)) :=
    .forall₂ fun source _ => caseGroup_isOf source
  have printed : (switch ⟨0⟩ outerCases none).render tablesEnv none = .ok (.plain outerLines) := rfl
  have written := Emit.run_statement (f := .plain outerLines) (w := {}) printed
  refine ⟨printed, written, _, rfl, rfl, fun g member encloses => ?_⟩
  obtain ⟨source, listed, isOf⟩ := exists_of_mem_right (each _ rfl) member
  exact outside source listed (isOf.encloses_iff.1 encloses)

end Stmt

end CppPrinter
