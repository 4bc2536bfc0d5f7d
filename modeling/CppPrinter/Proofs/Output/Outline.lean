import CppPrinter.Proofs.Sharing.Program

/-!
# What the header is printed from

The header is printed from the outline of a program: its bodies and its resources away
(`Program.outline`). Of a constructor the outline keeps whether the program supplies one, because the
header declares a constructor without a body of its own as the standard one; of a method not even
that. So an edit to a body leaves the header as it was.
-/

namespace CppPrinter

/-- The method without its body. -/
def Method.outline (m : Method ExprId) : Method ExprId := { m with body := none }

/-- The class without the statements of its bodies. -/
def Class.outline (c : Class ExprId) : Class ExprId :=
  { c with
    constructorBody := c.constructorBody.map fun _ => []
    methods := c.methods.map Method.outline }

/-- The program without the statements of its bodies and without its resources. -/
def Program.outline (p : Program) : Program :=
  { p with
    classes := p.classes.map Class.outline
    resources := {} }

namespace Class

variable (c : Class ExprId)

@[simp] theorem head_outline : c.outline.head = c.head := by
  simp [head, outline, Method.outline, Function.comp_def]

theorem methodsOf_outline (v : Visibility) :
    c.outline.methodsOf v = (c.methodsOf v).map Method.outline := by
  rw [methodsOf, outline, List.filter_map]
  rfl

theorem isEmptyIn_outline (v : Visibility) : c.outline.isEmptyIn v = c.isEmptyIn v := by
  unfold isEmptyIn
  rw [methodsOf_outline, List.isEmpty_map]
  rfl

theorem constructorLine_outline : c.outline.constructorLine = c.constructorLine := by
  simp [constructorLine, constructorSuffix, outline]

theorem memberLines_outline (env : Env) (v : Visibility) :
    c.outline.memberLines env v = c.memberLines env v := by
  unfold memberLines
  rw [methodsOf_outline, List.mapM_map, constructorLine_outline]
  rfl

/-- A class is declared by its outline. -/
theorem declarationLines_outline (env : Env) :
    c.outline.declarationLines env = c.declarationLines env := by
  have each (s : Visibility × String) :
      c.outline.sectionLines env s.1 s.2 = c.sectionLines env s.1 s.2 := by
    rw [sectionLines, sectionLines, isEmptyIn_outline, memberLines_outline]
  unfold declarationLines
  rw [funext each]
  rfl

end Class

namespace Program

variable (p : Program)

@[simp] theorem env_outline : p.outline.env = p.env := by
  simp [env, scope, outline, Function.comp_def]

theorem classLines_outline (id : ClassId) : p.outline.classLines id = p.classLines id := by
  have entry : p.outline.class? id = Class.outline <$> p.class? id :=
    lookUp_map Class.outline p.classes id.index
  rw [classLines, classLines, entry, env_outline]
  cases p.class? id with
  | error e => rfl
  | ok c => exact c.declarationLines_outline p.env

theorem forwardLines_outline : p.outline.forwardLines = p.forwardLines := by
  simp [forwardLines, outline, Class.outline, Function.comp_def]

/-- The order of the classes comes from names, parents and fields. -/
theorem classOrder_outline : classOrder p.outline.classes = classOrder p.classes :=
  classOrder_congr (g := Class.outline) (fun _ => rfl) (fun _ => rfl) p.classes

/-- The header declares what its outline declares. -/
theorem declarationLines_outline : p.outline.declarationLines = p.declarationLines := by
  unfold declarationLines
  rw [classOrder_outline, forwardLines_outline, env_outline, funext p.classLines_outline]
  rfl

theorem header_outline (o : Options) : p.outline.header o = p.header o := by
  rw [header_eq, header_eq, headerLines, headerLines, declarationLines_outline]

end Program

/-- Programs with the same outline come to the same header: they may differ in the statements of their
methods and constructors, in which methods have a body at all, and in resources. Neither the result of
printing the header, an error included, nor the header of a program that is printed as a whole depends
on those. -/
theorem header_of_outline (p q : Program) (o : Options) (same : p.outline = q.outline) :
    p.header o = q.header o ∧
    ∀ files files', p.print o = .ok files → q.print o = .ok files' →
      files.header = files'.header ∧ files.headerPath = files'.headerPath := by
  have headers : p.header o = q.header o := by
    rw [← p.header_outline, ← q.header_outline, same]
  refine ⟨headers, fun files files' printed printed' => ?_⟩
  simp only [Program.print, bind_eq_ok_iff, pure_eq_ok, Except.ok.injEq] at printed printed'
  obtain ⟨header, inHeader, source, -, rfl⟩ := printed
  obtain ⟨header', inHeader', source', -, rfl⟩ := printed'
  rw [headers, inHeader'] at inHeader
  exact ⟨(Except.ok.inj inHeader).symm, rfl⟩

/-- A counter with the given statements in its constructor, the given body of its method, and a
resource of the given bytes. -/
def counterWith (start : List (Stmt ExprId)) (step : Stmt ExprId) (icon : List UInt8) : Program where
  classes := #[⟨"Counter", none, .normal, some start, [],
    [⟨"total", .ownClass, .integer .i64, some ⟨0⟩⟩],
    [⟨⟨"Step", .everywhere, .normal, true, .void, []⟩, some step⟩]⟩]
  exprs := ⟨#[⟨.literal (.int 0), .integer .i64⟩, ⟨.symbol (.field ⟨0⟩ "total"), .integer .i64⟩,
    ⟨.step .increment ⟨1⟩, .integer .i64⟩]⟩
  resources := .ofList [("icon", icon)]

theorem header_of_outline_counters :
    (counterWith [] (.evaluate ⟨2⟩) [1]).outline =
      (counterWith [.evaluate ⟨2⟩] (.block []) [2, 3]).outline ∧
    ∃ files files', (counterWith [] (.evaluate ⟨2⟩) [1]).print {} = .ok files ∧
      (counterWith [.evaluate ⟨2⟩] (.block []) [2, 3]).print {} = .ok files' ∧
      files.header = files'.header := by
  have same : (counterWith [] (.evaluate ⟨2⟩) [1]).outline =
      (counterWith [.evaluate ⟨2⟩] (.block []) [2, 3]).outline := by
    simp [counterWith, Program.outline, Class.outline, Method.outline]
  obtain ⟨files, printed⟩ :=
    exists_of_isOk (r := (counterWith [] (.evaluate ⟨2⟩) [1]).print {}) (by decide +kernel)
  obtain ⟨files', printed'⟩ := exists_of_isOk
    (r := (counterWith [.evaluate ⟨2⟩] (.block []) [2, 3]).print {}) (by decide +kernel)
  have headers := (header_of_outline _ _ {} same).2 files files' printed printed'
  exact ⟨same, files, files', printed, printed', headers.1⟩

end CppPrinter
