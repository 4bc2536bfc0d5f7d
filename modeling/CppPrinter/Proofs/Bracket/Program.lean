import CppPrinter.Proofs.Bracket.Class
import CppPrinter.Proofs.Output.Path
import CppPrinter.Proofs.Reference.Program

/-!
# Files without loose brackets

Both files that a program is printed into are well bracketed (`print_isWellBracketed`), whatever strings
and resources the program holds: only its names have to be identifiers, and the name of the output fit
to stand between quotes.
-/

namespace CppPrinter

/-- Lines that take and leave nothing make a well bracketed text. -/
theorem Lays.isWellBracketed {ls : List Line} (h : Lays [] ls []) : IsWellBracketed (linesText ls) :=
  ⟨.loose, by rw [linesText, String.toList_ofList]; exact h 0⟩

/-! ### Inclusions -/

theorem includeLines_lay {names : List String} (each : ∀ name ∈ names, IsNaming name) :
    Lays [] (names.map includeLine) [] := by
  refine .of_each (List.forall_mem_map.2 fun name listed => ?_)
  have text := (each name listed).leadsFrom "#include <" (by decide)
  exact .line ((text.append (by decide : Leads plainly [] ">" [] plainly)).mono
    (List.Subset.refl _) (by decide))

namespace Scan

/-- What is not ended by a backslash is read to its end between the delimiters. -/
theorem run_inside {delimiter : Char} (delimits : delimiter ∈ delimiters) (awaited : List Char) :
    ∀ cs : List Char, (∀ c ∈ cs, c ≠ delimiter ∧ c ≠ '\n') → cs.getLast? ≠ some '\\' →
      run awaited (.inside delimiter) cs = some (awaited, .inside delimiter)
  | [], _, _ => rfl
  | [c], inLine, noBackslash => by
    obtain ⟨⟨noDelimiter, noBreak⟩, -⟩ := List.forall_mem_cons.1 inLine
    exact run_contents awaited noDelimiter (fun same => noBackslash (congrArg some same)) noBreak []
  | c :: d :: rest, inLine, noBackslash => by
    obtain ⟨⟨noDelimiter, noBreak⟩, later⟩ := List.forall_mem_cons.1 inLine
    by_cases escapes : c = '\\'
    · -- The two characters are read together, and the rest is no longer than before.
      obtain ⟨⟨-, noBreak'⟩, later⟩ := List.forall_mem_cons.1 later
      rw [escapes, run_backslash awaited delimits noBreak']
      refine run_inside delimits awaited rest later fun last => noBackslash ?_
      rw [List.getLast?_cons_cons, List.getLast?_cons, last]
      rfl
    · rw [run_contents awaited noDelimiter escapes noBreak]
      exact run_inside delimits awaited (d :: rest) later
        (by rwa [List.getLast?_cons_cons] at noBackslash)

end Scan

/-- The namespace is an identifier, and the name of the output fits between quotes. -/
structure Options.IsNamed (o : Options) : Prop where
  namespaceName : ∀ name ∈ o.namespaceName, IsIdentifier name
  outputName : ∀ c ∈ o.outputName, c ≠ '\x22' ∧ c ≠ '\n'

namespace Options

theorem isNamed_default : IsNamed {} := ⟨nofun, by decide +kernel⟩

variable {o : Options} (named : o.IsNamed)

include named

theorem IsNamed.headerName : ∀ c ∈ o.headerName.toList, c ≠ '\x22' ∧ c ≠ '\n' := by
  have extension : ∀ c ∈ ".hpp".toList, c ≠ '\x22' ∧ c ≠ '\n' := by decide
  exact fun c member => (o.mem_headerName member).elim (named.outputName c) (extension c)

/-- The header is included by a closed literal. -/
theorem leads_inclusion : Leads freely [] ("#include \x22" ++ o.headerName ++ "\x22") [] anyhow := by
  have opens : Scan.run [] (.code .loose) "#include \x22".toList = some ([], .inside '\x22') := by decide
  have closes : Scan.run [] (.inside '\x22') "\x22".toList = some ([], .code .loose) := by decide
  intro edge free
  obtain rfl := List.mem_singleton.1 free
  refine ⟨.loose, by decide, ?_⟩
  rw [String.toList_append, String.toList_append, Scan.run_append, Scan.run_append, opens,
    Option.bind_some, Scan.run_inside (by decide) [] _ named.headerName o.getLast?_headerName,
    Option.bind_some, closes]

end Options

/-! ### Namespaces -/

/-- The brace that the namespace leaves open. -/
def Options.awaited (o : Options) : List Char :=
  match o.namespaceName with
  | some _ => ['\x7d']
  | none => []

theorem Options.opening_lays {o : Options} (named : o.IsNamed) : Lays [] o.opening o.awaited := by
  unfold opening awaited
  cases given : o.namespaceName with
  | none => exact .nil
  | some name =>
    have head := (named.namespaceName name given).isWord.isNaming.headed "namespace "
      (by decide)
    have brace : Leads freely [] "\x7b" ['\x7d'] anyhow := by decide
    exact Lays.blank.append (head.isClosed.line.append (.line brace))

theorem Options.closing_lays (o : Options) : Lays o.awaited o.closing [] := by
  unfold closing awaited
  have brace : Leads freely ['\x7d'] "\x7d" [] anyhow := by decide
  cases o.namespaceName with
  | none => exact .nil
  | some name => exact .line brace

/-! ### Resources -/

/-- Whatever characters the name has, no identifier has any but those of words. -/
theorem resourceDeclaration_closed (name : String) (bytes : List UInt8) :
    IsClosed (resourceDeclaration name bytes) := by
  have length := (isWord_repr bytes.length).isNaming.leadsFrom
    "const std::array<uint8_t, " (by decide)
  have angle : Leads plainly [] "> " [] freely := by decide
  have identifier : IsClosed (sanitizeIdentifier name) := .of_calm fun c member =>
    isCalm_of_inWord (inWord_of_mem_sanitizeIdentifier member)
  exact (length.append angle).append identifier

theorem byteLine_closed (bytes : List UInt8) : IsClosed (byteLine bytes) :=
  .intercalate (List.forall_mem_map.2 fun byte _ => (isWord_repr byte.toNat).isNaming.isClosed)

theorem resourceDefinition_lays (name : String) (bytes : List UInt8) :
    Lays [] (resourceDefinition name bytes) [] := by
  have brace : Leads softly [] " = \x7b" ['\x7d'] anyhow := by decide
  exact Lays.block _ _ ((resourceDeclaration_closed name bytes).append brace)
    (Lays.commaLines (List.forall_mem_map.2 fun line _ => byteLine_closed line)).indented (by decide)

theorem inResourceNamespace_lays {body : List Line} (h : Lays [] body []) :
    Lays [] (inResourceNamespace body) [] := by
  have outer : Lays [] [.blank, .flush "namespace"] [] := Lays.blank.append (.line (by decide))
  have inner : Lays [] [.flush ("namespace " ++ resourceNamespace)] [] := .line (by decide)
  exact outer.append (inner.append h.braced).braced

namespace ResourceTable

variable (t : ResourceTable)

theorem declarationLines_lay : Lays [] t.declarationLines [] := by
  unfold declarationLines
  split
  · exact .nil
  · refine inResourceNamespace_lays (.of_each (List.forall_mem_map.2 fun r _ => ?_))
    exact (((resourceDeclaration_closed r.1 r.2).headed "extern " (by decide)).followed ";"
      (by decide)).line

theorem definitionLines_lay : Lays [] t.definitionLines [] := by
  unfold definitionLines
  split
  · exact .nil
  · rw [List.flatMap_def]
    exact inResourceNamespace_lays (.flatten (List.forall_mem_map.2 fun r _ =>
      resourceDefinition_lays r.1 r.2))

end ResourceTable

/-! ### Files -/

namespace Program

variable {p : Program} {o : Options} (named : p.EveryName IsIdentifier)

include named

theorem forwardLines_lay : Lays [] p.forwardLines [] := by
  unfold forwardLines
  split
  · exact .nil
  · refine Lays.blank.cons (.of_each (List.forall_mem_map.2 fun c member => ?_))
    have name := (named.classes c (Array.mem_toList_iff.1 member)).name.isWord.isNaming
    exact ((name.headed "class " (by decide)).isClosed.followed _ (by decide)).line

theorem declarationLines_lay : Gives (Lays [] · []) p.declarationLines := by
  have enum : ∀ e ∈ p.enums.toList, Gives (Lays [] · []) (e.declarationLines p.env) :=
    fun e member => Enum.declarationLines_lay named.env (named.enums e (Array.mem_toList_iff.1 member))
  have classAt : ∀ id, Gives (Lays [] · []) (p.classLines id) := by
    intro id
    have listed : Gives (Class.EveryName IsIdentifier) (p.class? id) := fun c found =>
      named.classes c (Array.mem_of_getElem? (lookUp_eq_ok_iff.1 found))
    exact listed.bind fun _ => Class.declarationLines_lay named.env
  exact .after fun order => (Gives.mapM enum).bind fun _ enums =>
    (Gives.mapM fun id _ => classAt id).bind fun _ classes =>
      .ok (((Lays.flatten enums).append (forwardLines_lay named)).append (.flatten classes))

variable (named' : o.IsNamed)

include named'

theorem headerLines_lay : Gives (Lays [] · []) (p.headerLines o) := by
  refine (declarationLines_lay named).bind fun _ inner => .ok ?_
  have pragma : Lays [] [.flush "#pragma once"] [] := .line (by decide)
  have start : Lays [] (headerStart o) o.awaited :=
    (pragma.cons (includeLines_lay (by decide))).append (Options.opening_lays named')
  exact (start.append (inner.frame o.awaited)).append o.closing_lays

theorem sourceLines_lay : Gives (Lays [] · []) (p.sourceLines o) := by
  refine (Gives.mapM fun c member => Class.definitionLines_lay named.env
    (named.classes c (Array.mem_toList_iff.1 member))).bind fun _ definitions => .ok ?_
  have literals : Lays [] [.flush "using namespace std::string_view_literals;"] [] :=
    .line (by decide +kernel)
  have header := (Lays.line (Options.leads_inclusion named')).cons literals
  have start : Lays [] (p.sourceStart o) o.awaited :=
    (((includeLines_lay (by decide)).append header).append p.resources.declarationLines_lay).append
      (Options.opening_lays named')
  have inner := (Lays.flatten definitions).frame o.awaited
  -- The tables stand outside of the namespace, whose brace is awaited below the definitions alone.
  exact ((start.append inner).append o.closing_lays).append p.resources.definitionLines_lay

end Program

/-- Both files are well bracketed: every literal is closed on its line, and outside of literals every
bracket is closed and every closing bracket closes the one that was opened last. -/
theorem print_isWellBracketed (p : Program) (o : Options) (named : p.EveryName IsIdentifier)
    (named' : o.IsNamed) (files : Artifacts) (printed : p.print o = .ok files) :
    IsWellBracketed files.header ∧ IsWellBracketed files.source := by
  rw [Program.print_eq, bind_eq_ok_iff] at printed
  obtain ⟨header, headerPrinted, rest⟩ := printed
  obtain ⟨source, sourcePrinted, result⟩ := bind_eq_ok_iff.1 rest
  rw [pure_eq_ok, Except.ok.injEq] at result
  subst result
  exact ⟨(Program.headerLines_lay named named' header headerPrinted).isWellBracketed,
    (Program.sourceLines_lay named named' source sourcePrinted).isWellBracketed⟩

/-- A constructor with a literal full of brackets and quotes inside a block, and a resource whose name has
brackets too. -/
def looseLiterals : Program where
  classes := #[{
    name := "Parser"
    parent := none
    kind := .normal
    constructorBody := some [.branch ⟨0⟩ (.block [.evaluate ⟨1⟩]) none]
    constants := []
    fields := []
    methods := [] }]
  exprs := ⟨#[⟨.literal (.bool true), .bool⟩,
    ⟨.literal (.string ")\x22]\n\x27\x7b\\"), .string .view⟩]⟩
  resources := (∅ : ResourceTable).insert "\x7d\x22(\n" [40, 41]

theorem looseLiterals_everyName : looseLiterals.EveryName IsIdentifier where
  classes := by
    intro c member
    obtain rfl := List.mem_singleton.1 (Array.mem_toList_iff.2 member)
    refine ⟨by decide, nofun, nofun, nofun, ?_, nofun⟩
    rintro _ ⟨⟩
    refine List.forall_mem_singleton.2 (.intro nofun (List.forall_mem_singleton.2 ?_))
    exact .intro nofun (List.forall_mem_singleton.2 (.intro nofun nofun))
  enums := nofun
  exprs := by decide

theorem print_isWellBracketed_looseLiterals : looseLiterals.EveryName IsIdentifier ∧ Options.IsNamed {} ∧
    ∃ files, looseLiterals.print {} = .ok files ∧ IsWellBracketed files.header ∧
      IsWellBracketed files.source := by
  have options := Options.isNamed_default
  obtain ⟨files, printed⟩ := exists_of_isOk (r := looseLiterals.print {}) (by decide +kernel)
  exact ⟨looseLiterals_everyName, options, files, printed,
    print_isWellBracketed looseLiterals {} looseLiterals_everyName options files printed⟩

end CppPrinter
