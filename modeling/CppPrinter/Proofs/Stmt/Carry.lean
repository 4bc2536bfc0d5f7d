import CppPrinter.Proofs.Class.Name
import CppPrinter.Proofs.Output.Layout

/-!
# What the lines of a statement carry

A statement puts fixed words around the texts of its expressions and declarations and lays them out on
lines. A property of texts that these words do not disturb (`Framing`) is therefore one of all lines of the
statement, however deep it nests, as soon as expressions and declarations have it (`Env.Supplies`,
`Stmt.render_carries`).
-/

namespace CppPrinter

/-- The words that a statement puts around texts, or between them, or by themselves on a line, keep the
property. -/
structure Framing (good : String → Prop) : Prop where
  alone : ∀ text ∈ ["", "\x7b", "\x7d", "do", "else", "return;", "break;", "continue;", "default:",
    "throw std::exception();"], good text
  headed : ∀ lead ∈ ["if (", "while (", "for (", "switch (", "return ", "case ", "\x7d ", " "],
    ∀ {text}, good text → good (lead ++ text)
  followed : ∀ tail ∈ [";", ")", ");", ":", " \x7b", ") \x7b"], ∀ {text}, good text → good (text ++ tail)
  joined : ∀ joint ∈ [";", " "], ∀ {front back}, good front → good back → good (front ++ joint ++ back)

/-- The line carries a good text, and is no empty one. -/
def Line.Carries (good : String → Prop) : Line → Prop
  | blank => False
  | code _ text => good text

/-- All lines carry good texts. -/
def Carry (good : String → Prop) (ls : List Line) : Prop := ∀ l ∈ ls, l.Carries good

namespace Carry

variable {good : String → Prop} {ls ms : List Line} {text : String}

theorem nil : Carry good [] := List.forall_mem_nil _

theorem line (h : good text) : Carry good [.flush text] := List.forall_mem_singleton.2 h

theorem append (h : Carry good ls) (h' : Carry good ms) : Carry good (ls ++ ms) :=
  List.forall_mem_append.2 ⟨h, h'⟩

theorem cons (h : good text) (h' : Carry good ls) : Carry good (.flush text :: ls) :=
  (line h).append h'

theorem indented (h : Carry good ls) : Carry good (indented ls) := by
  refine List.forall_mem_map.2 fun l member => ?_
  have here := h l member
  cases l with
  | blank => exact here
  | code depth text => exact here

theorem braced (fixed : Framing good) (h : Carry good ls) : Carry good (braced ls) :=
  cons (fixed.alone _ (by decide)) (h.indented.append (line (fixed.alone _ (by decide))))

end Carry

/-! ### Fragments -/

namespace Fragment

variable {good : String → Prop} {f : Fragment} {header : String} (fixed : Framing good)

/-- All texts of the statement are good. -/
def Carries (good : String → Prop) : Fragment → Prop
  | block body => Carry good body
  | conditional first rest => good first ∧ Carry good rest
  | declaration text => good text
  | plain lines => Carry good lines

include fixed

theorem Carries.lines (h : f.Carries good) : Carry good f.lines := by
  cases f with
  | block body => exact Carry.braced fixed h
  | conditional first rest => exact Carry.cons h.1 h.2
  | declaration text => exact .line h
  | plain lines => exact h

theorem headed_good (h : good header) (f : Fragment) : good (f.headed header) := by
  cases f with
  | block body => exact fixed.followed _ (by decide) h
  | _ => exact h

theorem Carries.inner (h : f.Carries good) : Carry good f.inner := by
  cases f with
  | block body => exact Carry.indented h
  | _ => exact (h.lines fixed).indented

theorem closing_carry (f : Fragment) : Carry good f.closing := by
  cases f with
  | block body => exact .line (fixed.alone _ (by decide))
  | _ => exact .nil

theorem followedBy_good {next : String} (h : good next) (f : Fragment) : good (f.followedBy next) := by
  cases f with
  | block body => exact fixed.headed _ (by decide) h
  | _ => exact h

theorem Carries.under (h : f.Carries good) (first : good header) : Carry good (f.under header) :=
  .cons (headed_good fixed first f) ((h.inner fixed).append (closing_carry fixed f))

theorem Carries.asElse {lead : String} (h : f.Carries good) (front : good lead) :
    Carry good (f.asElse lead) := by
  cases f with
  | conditional first rest => exact .cons (fixed.joined _ (by decide) front h.1) h.2
  | _ => exact h.under fixed front

theorem Carries.ofBranch (first : good header) {positive : Fragment} (h : positive.Carries good)
    {negative? : Option Fragment} (h' : ∀ negative ∈ negative?, negative.Carries good) :
    (ofBranch header positive negative?).Carries good := by
  have top := headed_good fixed first positive
  cases negative? with
  | none => exact ⟨top, (h.inner fixed).append (closing_carry fixed positive)⟩
  | some negative =>
    have word := followedBy_good fixed (fixed.alone "else" (by decide)) positive
    exact ⟨top, (h.inner fixed).append ((h' negative rfl).asElse fixed word)⟩

theorem Carries.ofDoLoop {body : Fragment} (h : body.Carries good) {condition : String}
    (last : good condition) : (ofDoLoop body condition).Carries good :=
  Carry.cons (headed_good fixed (fixed.alone _ (by decide)) body)
    ((h.inner fixed).append (.line (followedBy_good fixed last body)))

theorem carry_flatMap_lines {fs : List Fragment} (each : ∀ f ∈ fs, f.Carries good) :
    Carry good (fs.flatMap lines) :=
  List.forall_mem_flatMap.2 fun f member => (each f member).lines fixed

theorem carry_caseBody {fs : List Fragment} (each : ∀ f ∈ fs, f.Carries good) :
    Carry good (caseBody fs) := by
  have before : Carry good ((fs.takeWhile (!·.isDeclaration)).flatMap lines) :=
    carry_flatMap_lines fixed fun f member => each f ((List.takeWhile_sublist _).subset member)
  have declared : Carry good ((fs.dropWhile (!·.isDeclaration)).flatMap lines) :=
    carry_flatMap_lines fixed fun f member => each f ((List.dropWhile_sublist _).subset member)
  refine (before.append ?_).indented
  split
  · exact .nil
  · exact declared.braced fixed

end Fragment

/-! ### Statements -/

/-- The texts of expressions are good, and so are those of declarations of the names. -/
structure Env.Supplies (env : Env) (returnType : Option Ty) (named good : String → Prop) : Prop where
  plain : ∀ id, Gives good (env.plain id)
  returned : ∀ id, Gives good (env.returned returnType id)
  declare : ∀ {name}, named name → ∀ ty value, Gives good (env.declare name ty value)
  constant : ∀ {name}, named name → ∀ ty value, Gives good (env.constant name ty value)

section Render

variable {env : Env} {returnType : Option Ty} {named good : String → Prop} (fixed : Framing good)
  (supplied : env.Supplies returnType named good)

include fixed supplied

namespace Env.Supplies

omit fixed in
theorem localConstant {name : String} (h : named name) (ty : Ty) (value : ExprId) :
    Gives (Carry good) (env.localConstant name ty value) := by
  unfold Env.localConstant
  split
  · exact (supplied.constant h ty value).bind fun _ text => .ok (.line text)
  · exact .ok .nil

theorem headPart (value : Option ExprId) : Gives good (env.headPart value) := by
  cases value with
  | none => exact .ok (fixed.alone _ (by decide))
  | some id => exact (supplied.plain id).bind fun _ text => .ok (fixed.headed _ (by decide) text)

theorem labels (ids : List ExprId) : Gives (Carry good) (env.labels ids) := by
  have each : ∀ id ∈ ids, Gives (Line.Carries good) (do
      return .flush ("case " ++ (← env.plain id) ++ ":")) := fun id _ =>
    (supplied.plain id).bind fun _ text =>
      .ok (fixed.followed _ (by decide) (fixed.headed _ (by decide) text))
  exact .mapM each

theorem loopStart {start : Option (Stmt ExprId)} (names : ∀ s ∈ start.toList, s.EveryName named) :
    Gives good (env.loopStart start) := by
  cases start with
  | none => exact .ok (fixed.alone _ (by decide))
  | some s =>
    cases s with
    | declare name ty value =>
      exact supplied.declare ((names _ (List.mem_singleton_self _)).parts.1 name rfl) ty value
    | evaluate value => exact supplied.plain value
    | _ => exact .unsupported _

end Env.Supplies

namespace Stmt

omit fixed supplied in
theorem renderAll_carries {body : List (Stmt ExprId)}
    (each : ∀ s ∈ body, Gives (Fragment.Carries good) (s.render env returnType)) :
    Gives (fun fs => ∀ f ∈ fs, Fragment.Carries good f) (renderAll env returnType body) := by
  rw [renderAll_eq_mapM]
  exact .mapM each

theorem renderCases_carry {cases : List (List ExprId × List (Stmt ExprId))}
    (each : ∀ s ∈ cases.flatMap Prod.snd, Gives (Fragment.Carries good) (s.render env returnType)) :
    Gives (Carry good) (renderCases env returnType cases) := by
  induction cases with
  | nil => exact .ok .nil
  | cons group rest ih =>
    obtain ⟨labels, body⟩ := group
    obtain ⟨here, later⟩ := List.forall_mem_append.1 each
    exact (supplied.labels fixed labels).bind fun _ heads => (renderAll_carries here).bind
      fun _ carried => (ih later).bind fun _ others =>
        .ok ((heads.append (Fragment.carry_caseBody fixed carried)).append others)

/-- A statement carries good texts if all that it prints inside does. -/
theorem render_carries_step (s : Stmt ExprId) (names : s.EveryName named)
    (below : ∀ t ∈ s.children, Gives (Fragment.Carries good) (t.render env returnType)) :
    Gives (Fragment.Carries good) (s.render env returnType) := by
  have ended : ∀ {text : String}, good text → good (text ++ ";") := fixed.followed _ (by decide)
  have word : ∀ {text : String}, good text →
      Gives (Fragment.Carries good) (.ok (.plain [.flush text])) := fun h => .ok (.line h)
  cases s with
  | block body =>
    rw [render]
    exact (renderAll_carries below).bind fun _ carried =>
      .ok (Fragment.carry_flatMap_lines fixed carried)
  | declare name ty value =>
    exact (supplied.declare (names.parts.1 name rfl) ty value).bind fun _ text => .ok (ended text)
  | constant name ty value =>
    exact (supplied.localConstant (names.parts.1 name rfl) ty value).bind
      fun _ carried => .ok carried
  | evaluate value => exact (supplied.plain value).bind fun _ text => .ok (.line (ended text))
  | ret value =>
    cases value with
    | none => exact word (fixed.alone _ (by decide))
    | some id =>
      exact (supplied.returned id).bind fun _ text =>
        .ok (.line (ended (fixed.headed _ (by decide) text)))
  | branch test positive negative =>
    obtain ⟨first, second⟩ := List.forall_mem_cons.1 below
    have alternative : Gives (fun negative? => ∀ f ∈ negative?, Fragment.Carries good f)
        (renderOption env returnType negative) := by
      cases negative with
      | none => exact .ok fun f member => absurd member (Option.not_mem_none f)
      | some negative =>
        refine (second negative (List.mem_singleton_self _)).bind fun f carried => .ok ?_
        rintro _ ⟨⟩
        exact carried
    exact (supplied.plain test).bind fun _ condition => first.bind fun _ carried =>
      alternative.bind fun _ carried' => .ok (Fragment.Carries.ofBranch fixed
        (fixed.followed _ (by decide) (fixed.headed _ (by decide) condition)) carried carried')
  | whileLoop test body =>
    exact (supplied.plain test).bind fun _ condition =>
      (below body (List.mem_singleton_self _)).bind fun _ carried => .ok (carried.under fixed
        (fixed.followed _ (by decide) (fixed.headed _ (by decide) condition)))
  | doLoop body test =>
    exact (below body (List.mem_singleton_self _)).bind fun _ carried =>
      (supplied.plain test).bind fun _ condition => .ok (carried.ofDoLoop fixed
        (fixed.followed _ (by decide) (fixed.headed _ (by decide) condition)))
  | forLoop start test advance body =>
    obtain ⟨-, last⟩ := List.forall_mem_append.1 below
    have starts : ∀ s ∈ start.toList, s.EveryName named := fun s member =>
      names.parts.2 s (List.mem_append_left _ member)
    exact (supplied.loopStart fixed starts).bind fun _ first =>
      (supplied.headPart fixed test).bind fun _ condition =>
        (supplied.headPart fixed advance).bind fun _ step =>
          (last body (List.mem_singleton_self _)).bind fun _ carried => .ok (carried.under fixed
            (fixed.followed _ (by decide) (fixed.joined _ (by decide)
              (fixed.joined _ (by decide) (fixed.headed _ (by decide) first) condition) step)))
  | switch value cases otherwise =>
    obtain ⟨first, second⟩ := List.forall_mem_append.1 below
    have remaining : Gives (Carry good) (renderDefault env returnType otherwise) := by
      cases otherwise with
      | none => exact .ok .nil
      | some body =>
        exact (renderAll_carries second).bind fun _ carried =>
          .ok (.cons (fixed.alone _ (by decide)) (Fragment.carry_caseBody fixed carried))
    exact (supplied.plain value).bind fun _ chosen =>
      (renderCases_carry fixed supplied first).bind fun _ groups => remaining.bind fun _ last =>
        .ok (Carry.cons (fixed.followed _ (by decide) (fixed.headed _ (by decide) chosen))
          ((groups.append last).append (.line (fixed.alone _ (by decide)))))
  | breakLoop | continueLoop | throwing => exact word (fixed.alone _ (by decide))

/-- Every statement carries good texts, however deep it nests. -/
theorem render_carries {s : Stmt ExprId} (names : s.EveryName named) :
    Gives (Fragment.Carries good) (s.render env returnType) := by
  induction s using Stmt.induction with
  | step s ih =>
    exact render_carries_step fixed supplied s names fun t member =>
      ih t member (names.parts.2 t member)

theorem bodyLines_carry {body : List (Stmt ExprId)} (names : ∀ s ∈ body, s.EveryName named) :
    Gives (Carry good) (bodyLines env returnType body) :=
  (renderAll_carries fun s member => render_carries fixed supplied (names s member)).bind
    fun _ carried => .ok (Fragment.carry_flatMap_lines fixed carried)

end Stmt

end Render

end CppPrinter
