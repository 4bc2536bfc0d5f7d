import CppPrinter.Proofs.Class.Entry
import CppPrinter.Proofs.Output.Layout

/-!
# A class in both files

What a printed class comes to is a `Page`: the entries of its definition in the header, each with
its line, and its constructor and methods in the source, each with signature and body. The signature
of a method is one `Signature.Frame` around its name, in the header and in the source alike
(`Class.IsPrinted.methodsAgree`). The constructor is declared by the kind of the class and defined by
its body, which come to the same except for static classes (`Class.IsPrinted.constructorAgrees_iff`).
-/

namespace CppPrinter

/-! ### Signatures -/

/-- What a signature is made of besides the name: the text of the return type, those of the
parameters, and the mark of a method that leaves its object as it is. -/
structure Signature.Frame where
  returned : String
  params : String
  constness : String

namespace Signature.Frame

/-- The return type and what keeps it off the name. -/
def lead (f : Frame) : String := declarator f.returned ""

/-- The parameters and the constness. -/
def tail (f : Frame) : String := "(" ++ f.params ++ ")" ++ f.constness

/-- The signature of a method of this name. -/
def around (f : Frame) (name : String) : String := f.lead ++ name ++ f.tail

end Signature.Frame

/-- The frame of a method's signature. -/
def Signature.frame (scope : Scope) (s : Signature) : Rendered Signature.Frame := do
  let params ← s.paramsText scope
  return ⟨← s.returnType.spelling scope true, params, s.constness⟩

/-- What stands in front of a declared name does not depend on the name. -/
theorem declarator_eq (ty name : String) : declarator ty name = declarator ty "" ++ name := by
  unfold declarator
  split <;> simp [String.append_assoc]

theorem Signature.text_eq (scope : Scope) (s : Signature) (name : String) :
    s.text scope name = (do return (← s.frame scope).around name) := by
  unfold text frame Ty.declaration
  simp only [bind_assoc, pure_bind, declarator_eq _ name]
  simp [Signature.Frame.around, Signature.Frame.lead, Signature.Frame.tail, String.append_assoc]

/-- The line that declares a method, by its frame. -/
theorem Signature.declarationLine_eq (scope : Scope) (s : Signature) :
    s.declarationLine scope = (do
      let f ← s.frame scope
      return .flush (s.dispatch.specifier ++ f.around (camelCase s.name) ++
        s.dispatch.qualifier ++ ";")) := by
  unfold declarationLine
  rw [text_eq]
  simp

/-! ### Pages -/

/-- A definition in the source: its signature and the lines of its body. -/
structure Definition where
  signature : String
  body : List Line

/-- The lines of a definition, below an empty line. -/
def Definition.lines (d : Definition) : List Line :=
  [Line.blank, .flush d.signature] ++ braced d.body

/-- A class in the header and in the source. -/
structure Page where
  head : String
  entries : List (Class.Entry × Line)
  constructor : Option Definition
  methods : List (Method ExprId × Definition)

namespace Page

variable (page : Page)

/-- The lines of the class in the header. -/
def declared : List Line :=
  [Line.blank, .flush page.head, .flush "\x7b"] ++ page.entries.map Prod.snd ++ [Line.flush "\x7d;"]

/-- The lines of the class in the source. -/
def defined : List Line :=
  page.constructor.elim [] Definition.lines ++ page.methods.flatMap fun m => m.2.lines

end Page

namespace Class

variable {env : Env} {c : Class ExprId} {page : Page}

/-- The page holds the lines of the class in both files, with each part of it printed from the part of
the class that it stands for: in the header the head and the entries, in the source the constructor and
the methods, as far as they are defined. -/
structure IsPrinted (env : Env) (c : Class ExprId) (page : Page) : Prop where
  declared : c.declarationLines env = .ok page.declared
  defined : c.definitionLines env = .ok page.defined
  head : c.headText env.scope = .ok page.head
  entries : page.entries.map Prod.fst = c.entries
  lines : ∀ e line, (e, line) ∈ page.entries → e.line env c = .ok line
  constructor : page.constructor.map Definition.signature =
    c.constructorBody.map fun _ => c.name ++ "::" ++ c.name ++ "()"
  constructorLines : c.constructorLines env = .ok (page.constructor.elim [] Definition.lines)
  methods : page.methods.map Prod.fst = c.methods.filter (·.dispatch ≠ .abstract)
  signatures : ∀ m d, (m, d) ∈ page.methods →
    m.toSignature.text env.scope (c.name ++ "::" ++ camelCase m.name) = .ok d.signature
  bodies : ∀ m d, (m, d) ∈ page.methods → m.definitionLines env c.name = .ok d.lines

/-- A constructor in the source is one definition, if the program supplies it. -/
theorem exists_of_constructorLines {ls : List Line} (printed : c.constructorLines env = .ok ls) :
    ∃ d? : Option Definition, ls = d?.elim [] Definition.lines ∧
      d?.map Definition.signature =
        c.constructorBody.map fun _ => c.name ++ "::" ++ c.name ++ "()" := by
  unfold constructorLines at printed
  split at printed
  · rename_i noBody
    cases printed
    exact ⟨none, rfl, by rw [noBody]; rfl⟩
  · rename_i body hasBody
    obtain ⟨inner, -, result⟩ := bind_eq_ok_iff.1 printed
    cases result
    exact ⟨some ⟨_, inner⟩, rfl, by rw [hasBody]; rfl⟩

/-- A method in the source is nothing, if it is abstract, or one definition. -/
theorem exists_of_definitionLines {name : String} {m : Method ExprId} {ls : List Line}
    (printed : m.definitionLines env name = .ok ls) :
    m.dispatch = .abstract ∧ ls = [] ∨ m.dispatch ≠ .abstract ∧ ∃ d : Definition, ls = d.lines ∧
      m.toSignature.text env.scope (name ++ "::" ++ camelCase m.name) = .ok d.signature := by
  unfold Method.definitionLines at printed
  split at printed
  · rename_i isAbstract
    cases printed
    exact .inl ⟨isAbstract, rfl⟩
  · rename_i concrete
    refine .inr ⟨concrete, ?_⟩
    split at printed
    · simp at printed
    · obtain ⟨signature, spelled, rest⟩ := bind_eq_ok_iff.1 printed
      obtain ⟨inner, -, result⟩ := bind_eq_ok_iff.1 rest
      cases result
      exact ⟨⟨signature, inner⟩, rfl, spelled⟩

/-- The methods in the source are the definitions of those that are not abstract, in order. -/
theorem exists_of_methods {name : String} {methods : List (Method ExprId)}
    {parts : List (List Line)}
    (printed : methods.mapM (Method.definitionLines env name) = .ok parts) :
    ∃ ds : List (Method ExprId × Definition), parts.flatten = ds.flatMap (fun m => m.2.lines) ∧
      ds.map Prod.fst = methods.filter (·.dispatch ≠ .abstract) ∧
      ∀ m d, (m, d) ∈ ds →
        m.toSignature.text env.scope (name ++ "::" ++ camelCase m.name) = .ok d.signature ∧
          m.definitionLines env name = .ok d.lines := by
  have each := mapM_eq_ok_iff.1 printed
  clear printed
  induction each with
  | nil => exact ⟨[], rfl, rfl, by simp⟩
  | @cons m ls rest parts first _ ih =>
    obtain ⟨ds, flat, order, spelled⟩ := ih
    rcases exists_of_definitionLines first with ⟨isAbstract, rfl⟩ | ⟨concrete, d, rfl, signature⟩
    · exact ⟨ds, flat, by simp [isAbstract, order], spelled⟩
    · refine ⟨(m, d) :: ds, by simp [flat], by simp [concrete, order], ?_⟩
      intro m' d' member
      rcases List.mem_cons.1 member with same | later
      · cases same
        exact ⟨signature, first⟩
      · exact spelled m' d' later

/-- A class that is printed into both files has a page. -/
theorem exists_page {ls ms : List Line} (declared : c.declarationLines env = .ok ls)
    (defined : c.definitionLines env = .ok ms) : ∃ page, c.IsPrinted env page := by
  have parts := declared
  rw [declarationLines_eq, bind_eq_ok_iff] at parts
  obtain ⟨head, headed, rest⟩ := parts
  obtain ⟨body, printedBody, result⟩ := bind_eq_ok_iff.1 rest
  obtain ⟨start, printedStart, rest⟩ := bind_eq_ok_iff.1 defined
  obtain ⟨methods, printedMethods, result'⟩ := bind_eq_ok_iff.1 rest
  obtain ⟨d?, rfl, constructed⟩ := exists_of_constructorLines printedStart
  obtain ⟨ds, flat, order, spelled⟩ := exists_of_methods printedMethods
  obtain ⟨sameLength, each⟩ := List.forall₂_iff_zip.1 (mapM_eq_ok_iff.1 printedBody)
  cases result
  cases result'
  have lines : (c.entries.zip body).map Prod.snd = body :=
    List.map_snd_zip (Nat.le_of_eq sameLength.symm)
  exact ⟨⟨head, c.entries.zip body, d?, ds⟩, {
    declared := by rw [declared, Page.declared, lines]
    defined := by rw [defined, Page.defined, flat]
    head := headed
    entries := List.map_fst_zip (Nat.le_of_eq sameLength)
    lines := fun e line => each
    constructor := constructed
    constructorLines := printedStart
    methods := order
    signatures := fun m d member => (spelled m d member).1
    bodies := fun m d member => (spelled m d member).2 }⟩

/-- Every entry of the class has its line. -/
theorem IsPrinted.exists_line (h : c.IsPrinted env page) {e : Entry} (member : e ∈ c.entries) :
    ∃ line, (e, line) ∈ page.entries ∧ e.line env c = .ok line := by
  rw [← h.entries] at member
  obtain ⟨⟨e, line⟩, inside, rfl⟩ := List.mem_map.1 member
  exact ⟨line, inside, h.lines e line inside⟩

/-- The methods of the class are declared in the header, once each, and those that are not abstract
are defined in the source, once each and in order. Header and source give a method the same frame;
the header puts it between specifier and qualifier, and the source writes the name of the class in
front of the method's. -/
structure MethodsAgree (scope : Scope) (c : Class ExprId) (page : Page) : Prop where
  declared : (page.entries.filterMap fun e => e.1.method?).Perm c.methods
  defined : page.methods.map Prod.fst = c.methods.filter (·.dispatch ≠ .abstract)
  framed : ∀ m ∈ c.methods, ∃ f, m.toSignature.frame scope = .ok f ∧
    (∀ line, (.method m, line) ∈ page.entries → line =
      .code 1 (m.dispatch.specifier ++ f.around (camelCase m.name) ++ m.dispatch.qualifier ++ ";")) ∧
    ∀ d, (m, d) ∈ page.methods → d.signature = f.around (c.name ++ "::" ++ camelCase m.name)

theorem IsPrinted.methodsAgree (h : c.IsPrinted env page) : c.MethodsAgree env.scope page where
  declared := by
    have picked : page.entries.filterMap (fun e => e.1.method?) =
        (page.entries.map Prod.fst).filterMap Entry.method? := by
      rw [List.filterMap_map]
      rfl
    rw [picked, h.entries]
    exact c.methods_perm
  defined := h.methods
  framed := by
    intro m member
    obtain ⟨line, listed, -⟩ := h.exists_line (c.method_mem_entries_iff.2 member)
    have declares (line : Line) (inside : (.method m, line) ∈ page.entries) :
        ∃ f, m.toSignature.frame env.scope = .ok f ∧ line = .code 1 (m.dispatch.specifier ++
          f.around (camelCase m.name) ++ m.dispatch.qualifier ++ ";") := by
      have printed := h.lines _ line inside
      rw [Entry.line, Signature.declarationLine_eq, map_eq_ok_iff] at printed
      obtain ⟨flush, chain, rfl⟩ := printed
      obtain ⟨f, framed, result⟩ := bind_eq_ok_iff.1 chain
      cases result
      exact ⟨f, framed, rfl⟩
    obtain ⟨f, framed, -⟩ := declares line listed
    refine ⟨f, framed, fun line inside => ?_, fun d inside => ?_⟩
    · obtain ⟨g, again, shape⟩ := declares line inside
      rw [framed] at again
      cases again
      exact shape
    · have spelled := h.signatures m d inside
      rw [Signature.text_eq, framed] at spelled
      exact (Except.ok.inj spelled).symm

/-- The header declares the constructor in one line, and the source has at most one definition of
it, under the name of the class. -/
structure ConstructorPrinted (c : Class ExprId) (page : Page) : Prop where
  declared : page.entries.filter (fun e => e.1.isConstructor) =
    [(.constructor, .code 1 (c.name ++ "()" ++ c.constructorSuffix ++ ";"))]
  defined : ∀ d, page.constructor = some d → d.signature = c.name ++ "::" ++ c.name ++ "()"

/-- The source defines the constructor just when its line in the header leaves it open. -/
def ConstructorAgrees (c : Class ExprId) (page : Page) : Prop :=
  page.constructor.isSome = true ↔ (.constructor, .code 1 (c.name ++ "();")) ∈ page.entries

theorem IsPrinted.constructorPrinted (h : c.IsPrinted env page) : c.ConstructorPrinted page where
  declared := by
    have single : (page.entries.filter fun e => e.1.isConstructor).map Prod.fst =
        [.constructor] := by
      rw [← filter_isConstructor_entries c, ← h.entries, List.filter_map]
      rfl
    obtain ⟨⟨e, line⟩, filtered, entry⟩ := List.map_eq_singleton_iff.1 single
    have inside : (e, line) ∈ page.entries :=
      List.mem_of_mem_filter (filtered ▸ List.mem_singleton_self _)
    cases entry
    have printed := h.lines _ line inside
    cases printed
    exact filtered
  defined := by
    intro d defined
    have signature := h.constructor
    rw [defined] at signature
    cases body : c.constructorBody with
    | none => simp [body] at signature
    | some _ => simpa [body] using signature

/-- A constructor is left open by its suffix. -/
theorem constructorSuffix_eq_empty_iff (c : Class ExprId) :
    c.constructorSuffix = "" ↔ c.kind ≠ .static ∧ c.constructorBody.isSome = true := by
  unfold constructorSuffix
  by_cases isStatic : c.kind = .static
  · simp [isStatic]
  · cases body : c.constructorBody <;> simp [isStatic]

theorem IsPrinted.constructorAgrees_iff (h : c.IsPrinted env page) :
    c.ConstructorAgrees page ↔ ¬ (c.kind = .static ∧ c.constructorBody.isSome = true) := by
  have defined : page.constructor.isSome = c.constructorBody.isSome := by
    have same := congrArg Option.isSome h.constructor
    simpa using same
  have open_iff : (.constructor, .code 1 (c.name ++ "();")) ∈ page.entries ↔
      c.constructorSuffix = "" := by
    have filtered : (Entry.constructor, Line.code 1 (c.name ++ "();")) ∈ page.entries ↔
        (Entry.constructor, Line.code 1 (c.name ++ "();")) ∈
          page.entries.filter fun e => e.1.isConstructor := by
      rw [List.mem_filter]
      exact (and_iff_left rfl).symm
    have bare : c.name ++ "();" = c.name ++ "()" ++ "" ++ ";" := by
      rw [String.append_empty, String.append_assoc]
      rfl
    rw [filtered, h.constructorPrinted.declared, bare]
    simp only [List.mem_singleton, Prod.mk.injEq, true_and, Line.code.injEq,
      String.append_left_inj, String.append_right_inj]
    exact eq_comm
  rw [ConstructorAgrees, open_iff, constructorSuffix_eq_empty_iff, defined]
  tauto

end Class

end CppPrinter
