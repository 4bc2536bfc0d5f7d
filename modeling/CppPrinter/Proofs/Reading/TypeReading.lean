import CppPrinter.Proofs.Output.Supported
import CppPrinter.Proofs.Reading.Declaration
import CppPrinter.Proofs.Reference.Basic

/-!
# Types are read as what they stand for

A type whose classes and enumerations exist is spelled unless something in it has no spelling
(`Ty.spelling_outcome`). Read back by the grammar, the text is the type that the printed type stands
for, and no other; the text of a declaration declares the name that was given, with the promoted type
(`type_reads_as_meaning`).
-/

namespace CppPrinter

section Outcome

variable {scope : Scope}

theorem Scope.exists_className {c : ClassId} (inside : c.index < scope.classes.size) :
    ∃ name, scope.className c = .ok name :=
  ⟨scope.classes[c.index].name, by rw [className, class?, lookUp_of_lt inside]; rfl⟩

/-- A kind or no support is all that comes of an integer. -/
theorem IntKind.of_outcome (int : IntegerType) :
    (∃ kind, IntKind.of int = .ok kind) ∨
      ¬ (Ty.integer int).IsSpellable ∧ ∃ cause, IntKind.of int = unsupported cause := by
  obtain ⟨width, signed⟩ := int
  cases width <;> cases signed
  case w32.false | w64.false => exact .inr ⟨by simp [Ty.IsSpellable, IntWidth.bits], _, rfl⟩
  all_goals exact .inl ⟨_, rfl⟩

/-- Whether a type that resolves has a spelling is a matter of the integers in it and of null
alone, and a type without one is not supported. -/
theorem Ty.spelling_outcome {ty : Ty} (resolves : ty.Resolves scope) (promote : Bool) :
    (∃ text, ty.spelling scope promote = .ok text) ∨
      ¬ ty.IsSpellable ∧ ∃ cause, ty.spelling scope promote = unsupported cause := by
  induction ty generalizing promote with
  | void | bool | float | double | floatInt | string => exact .inl ⟨_, rfl⟩
  | integer int =>
    rcases IntKind.of_outcome int with ⟨kind, isKind⟩ | ⟨noSpelling, cause, failed⟩
    · exact .inl ⟨_, by rw [spelling, isKind]; rfl⟩
    · exact .inr ⟨noSpelling, cause, by rw [spelling, failed]; rfl⟩
  | arrayPtr _ element ih | arrayStorage element _ ih =>
    rcases ih resolves false with ⟨inner, printed⟩ | ⟨noSpelling, cause, failed⟩
    · exact .inl ⟨_, by rw [spelling, printed]; rfl⟩
    · exact .inr ⟨noSpelling, cause, by rw [spelling, failed]; rfl⟩
  | classPtr _ pointee =>
    obtain ⟨name, found⟩ := Scope.exists_className resolves
    exact .inl ⟨_, by rw [spelling, found]; rfl⟩
  | classValue stored => exact .inl (Scope.exists_className resolves)
  | enum enumeration => exact .inl ⟨_, lookUp_of_lt resolves⟩
  | null => exact .inr ⟨id, _, rfl⟩

end Outcome

section Reading

variable {scope : Scope} {ty : Ty} {promote : Bool} {text : String}

/-- The text of a type has one reading. -/
theorem Ty.readsType_iff (named : scope.NamesTypes)
    (printed : ty.spelling scope promote = .ok text) :
    ∃ t, ty.meaning scope promote = some t ∧ ∀ u, ReadsType text u ↔ u = t := by
  obtain ⟨ts, t, isType, reads, means⟩ := Ty.isTypeText_meaning named printed
  have own : ReadsType text t := ⟨ts, isType.spells, .ofPointing reads.pointing⟩
  refine ⟨t, means, fun u => ⟨fun other => other.unique own, ?_⟩⟩
  rintro rfl
  exact own

/-- The text of a declaration has one reading. -/
theorem Ty.readsDeclaration_iff (named : scope.NamesTypes)
    (printed : ty.spelling scope true = .ok text) {name : String} (isName : IsIdentifier name) :
    ∃ t, ty.meaning scope true = some t ∧
      ∀ name' u, ReadsDeclaration (declarator text name) name' u ↔ name' = name ∧ u = t := by
  obtain ⟨ts, t, isType, reads, means⟩ := Ty.isTypeText_meaning named printed
  have own : ReadsDeclaration (declarator text name) name t :=
    ⟨_, declarator_spells isType isName, .plain isName.free reads.pointing⟩
  refine ⟨t, means, fun name' u => ⟨fun other => other.unique own, ?_⟩⟩
  rintro ⟨rfl, rfl⟩
  exact own

end Reading

/-- Where classes and enumerations have identifiers for names, a type over what exists fails to be
spelled, as unsupported, exactly if an unsigned integer of 32 or 64 bits or null occurs in it. Any
other type is read, and in one way only, as what it stands for; and its declaration of a name is
read, and in one way only, as a declaration of this name with the promoted type. -/
theorem type_reads_as_meaning (p : Program) (classNames : ∀ c ∈ p.classes, IsIdentifier c.name)
    (enumNames : ∀ e ∈ p.enums, IsIdentifier e.name) (ty : Ty) (resolves : ty.Resolves p.scope) :
    (∀ promote, (∃ e, ty.spelling p.scope promote = .error e) ↔ ¬ ty.IsSpellable) ∧
    (∀ promote e, ty.spelling p.scope promote = .error e → ∃ cause, e = .unsupported cause) ∧
    (∀ promote, ty.IsSpellable → ∃ text t, ty.spelling p.scope promote = .ok text ∧
      ty.meaning p.scope promote = some t ∧ ∀ u, ReadsType text u ↔ u = t) ∧
    ∀ name, IsIdentifier name →
      ((∃ e, ty.declaration p.scope name = .error e) ↔ ¬ ty.IsSpellable) ∧
      (ty.IsSpellable → ∃ text t, ty.declaration p.scope name = .ok text ∧
        ty.meaning p.scope true = some t ∧
        ∀ name' u, ReadsDeclaration text name' u ↔ name' = name ∧ u = t) := by
  have named : p.scope.NamesTypes := by
    constructor
    · intro head listed
      obtain ⟨c, member, rfl⟩ := Array.mem_map.1 listed
      exact classNames c member
    · intro name listed
      obtain ⟨e, member, rfl⟩ := Array.mem_map.1 listed
      exact enumNames e member
  have spelled (promote : Bool) (spellable : ty.IsSpellable) :
      ∃ text, ty.spelling p.scope promote = .ok text :=
    (Ty.spelling_outcome resolves promote).resolve_right fun failed => failed.1 spellable
  refine ⟨?fails, ?unsupported, ?reads, ?declares⟩
  case fails =>
    intro promote
    constructor
    · rintro ⟨e, failed⟩ spellable
      obtain ⟨text, printed⟩ := spelled promote spellable
      rw [printed] at failed
      cases failed
    · intro noSpelling
      rcases Ty.spelling_outcome resolves promote with ⟨text, printed⟩ | ⟨-, cause, failed⟩
      · exact absurd (Ty.isSpellable_of_spelling printed) noSpelling
      · exact ⟨_, failed⟩
  case unsupported =>
    intro promote e failed
    rcases Ty.spelling_outcome resolves promote with ⟨text, printed⟩ | ⟨-, cause, failed'⟩
    · rw [printed] at failed
      cases failed
    · rw [failed'] at failed
      cases failed
      exact ⟨cause, rfl⟩
  case reads =>
    intro promote spellable
    obtain ⟨text, printed⟩ := spelled promote spellable
    obtain ⟨t, means, reads⟩ := Ty.readsType_iff named printed
    exact ⟨text, t, printed, means, reads⟩
  case declares =>
    intro name isName
    constructor
    · constructor
      · rintro ⟨e, failed⟩ spellable
        obtain ⟨text, printed⟩ := spelled true spellable
        rw [Ty.declaration, printed] at failed
        cases failed
      · intro noSpelling
        rcases Ty.spelling_outcome resolves true with ⟨text, printed⟩ | ⟨-, cause, failed⟩
        · exact absurd (Ty.isSpellable_of_spelling printed) noSpelling
        · exact ⟨_, by rw [Ty.declaration, failed]; rfl⟩
    · intro spellable
      obtain ⟨text, printed⟩ := spelled true spellable
      obtain ⟨t, means, reads⟩ := Ty.readsDeclaration_iff named printed isName
      exact ⟨_, t, by rw [Ty.declaration, printed]; rfl, means, reads⟩

/-- A program with one class and one enumeration. -/
def nodesAndColors : Program where
  classes := #[⟨"Node", none, .normal, none, [], [], []⟩]
  enums := #[⟨"Color", []⟩]

/-- Shared elements, each three pointers to read-only pointers to read-only nodes. -/
def sharedTriples : Ty :=
  .arrayPtr .shared (.arrayStorage (.arrayPtr .readOnly (.classPtr .readOnly ⟨0⟩)) 3)

theorem type_reads_as_meaning_sharedTriples :
    (∀ c ∈ nodesAndColors.classes, IsIdentifier c.name) ∧
    (∀ e ∈ nodesAndColors.enums, IsIdentifier e.name) ∧
    sharedTriples.Resolves nodesAndColors.scope ∧ IsIdentifier "triples" ∧
    ReadsDeclaration "std::shared_ptr<std::array<const Node * const *, 3>[]> triples" "triples"
      (.sharedPtr (.unbounded
        (.array (.pointer (.const (.pointer (.const (.named ["Node"]))))) 3))) := by
  have classNames : ∀ c ∈ nodesAndColors.classes, IsIdentifier c.name := by decide +kernel
  have enumNames : ∀ e ∈ nodesAndColors.enums, IsIdentifier e.name := by decide +kernel
  have resolves : sharedTriples.Resolves nodesAndColors.scope := by
    change 0 < nodesAndColors.scope.classes.size
    simp [nodesAndColors, Program.scope]
  have isName : IsIdentifier "triples" := by decide
  obtain ⟨-, -, -, declares⟩ :=
    type_reads_as_meaning nodesAndColors classNames enumNames sharedTriples resolves
  obtain ⟨text, t, printed, means, reads⟩ := (declares "triples" isName).2 trivial
  have isText : sharedTriples.declaration nodesAndColors.scope "triples" =
      .ok "std::shared_ptr<std::array<const Node * const *, 3>[]> triples" := by
    have found : nodesAndColors.scope.className ⟨0⟩ = .ok "Node" := by cbv
    simp only [Ty.declaration, sharedTriples, Ty.spelling, found, ok_bind, pure_eq_ok]
    exact congrArg Except.ok (by decide +kernel)
  have isMeaning : sharedTriples.meaning nodesAndColors.scope true = some (.sharedPtr (.unbounded
      (.array (.pointer (.const (.pointer (.const (.named ["Node"]))))) 3))) := by
    simp [Ty.meaning, sharedTriples, nodesAndColors, Program.scope, Class.head,
      Ownership.arrayTree, Ownership.classTree]
  rw [isText] at printed
  rw [isMeaning] at means
  cases printed
  cases means
  exact ⟨classNames, enumNames, resolves, isName, (reads _ _).2 ⟨rfl, rfl⟩⟩

end CppPrinter
