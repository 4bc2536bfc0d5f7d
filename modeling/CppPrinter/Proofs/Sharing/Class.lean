import CppPrinter.Class.Enumeration
import CppPrinter.Class.Order
import CppPrinter.Proofs.Sharing.Stmt

/-!
# Classes and enumerations with the same expressions

Classes that come to the same when every expression is replaced by its tree (`Class.map`) agree in
both of their definitions (`Class.declarationLines_agree`, `Class.definitionLines_agree`), and
enumerations in theirs. What is known of a class from outside, and what it depends on, has no
expression in it (`Class.head_map`, `classOrder_map`).
-/

namespace CppPrinter

variable {α β γ : Type}

/-- Replaces the value of a constant. -/
def Constant.map (f : α → β) (k : Constant α) : Constant β := ⟨k.name, k.visibility, k.ty, f k.value⟩

/-- Replaces the initial value of a field. -/
def Field.map (f : α → β) (g : Field α) : Field β := ⟨g.name, g.visibility, g.ty, g.value.map f⟩

/-- Replaces the expressions in the body of a method. -/
def Method.map (f : α → β) (m : Method α) : Method β := ⟨m.toSignature, m.body.map (Stmt.map f)⟩

/-- Replaces all expressions of a class. -/
def Class.map (f : α → β) (c : Class α) : Class β where
  name := c.name
  parent := c.parent
  kind := c.kind
  constructorBody := c.constructorBody.map (List.map (Stmt.map f))
  constants := c.constants.map (Constant.map f)
  fields := c.fields.map (Field.map f)
  methods := c.methods.map (Method.map f)

/-- Replaces the value of a member. -/
def EnumMember.map (f : α → β) (m : EnumMember α) : EnumMember β := ⟨m.name, m.value.map f⟩

/-- Replaces the values of all members. -/
def Enum.map (f : α → β) (e : Enum α) : Enum β := ⟨e.name, e.members.map (EnumMember.map f)⟩

@[simp] theorem Class.head_map (f : α → β) (c : Class α) : (c.map f).head = c.head := by
  simp [head, map, Method.map, Function.comp_def]

@[simp] theorem Class.dependencies_map (f : α → β) (c : Class α) :
    (c.map f).dependencies = c.dependencies := by
  simp [dependencies, map, Field.map, List.filterMap_map, Function.comp_def]

@[simp] theorem Class.map_id (c : Class α) : c.map id = c := by
  have constants : Constant.map (id : α → α) = id := rfl
  have fields : Field.map (id : α → α) = id := funext fun f => by simp [Field.map]
  have bodies : Stmt.map (id : α → α) = id := funext Stmt.map_id
  have methods : Method.map (id : α → α) = id := funext fun m => by simp [Method.map, bodies]
  simp [map, constants, fields, methods, bodies]

@[simp] theorem Enum.map_id (e : Enum α) : e.map id = e := by
  have members : EnumMember.map (id : α → α) = id := funext fun m => by simp [EnumMember.map]
  simp [map, members]

theorem lookUp_map (f : α → β) (table : Array α) (index : Nat) :
    lookUp (table.map f) index = f <$> lookUp table index := by
  unfold lookUp
  rw [Array.getElem?_map]
  cases table[index]? <;> rfl

section Order

variable {g : Class α → Class β} (names : ∀ c, (g c).name = c.name)
  (dependencies : ∀ c, (g c).dependencies = c.dependencies)

include names dependencies

theorem visitClass_congr (classes : Array (Class α)) (fuel : Nat) :
    visitClass (classes.map g) fuel = visitClass classes fuel := by
  induction fuel with
  | zero =>
    funext waiting order id
    simp only [visitClass, lookUp_map, map_eq_pure_bind, bind_assoc, pure_bind, names]
  | succ fuel ih =>
    funext waiting order id
    simp only [visitClass, lookUp_map, map_eq_pure_bind, bind_assoc, pure_bind, ih, names,
      dependencies]

/-- The order of the classes depends on nothing but their names and dependencies. -/
theorem classOrder_congr (classes : Array (Class α)) :
    classOrder (classes.map g) = classOrder classes := by
  rw [classOrder, visitClass_congr names dependencies, Array.size_map]
  rfl

end Order

/-- The order of the classes does not depend on their expressions. -/
theorem classOrder_map (f : α → β) (classes : Array (Class α)) :
    classOrder (classes.map (Class.map f)) = classOrder classes :=
  classOrder_congr (g := Class.map f) (fun _ => rfl) (Class.dependencies_map f) classes

/-- Picking by what the functions leave alone keeps lists looking the same. -/
theorem filter_map_eq {f : α → γ} {g : β → γ} {xs : List α} {ys : List β}
    (same : xs.map f = ys.map g) (pick : γ → Bool) :
    (xs.filter (pick ∘ f)).map f = (ys.filter (pick ∘ g)).map g := by
  rw [← List.filter_map, ← List.filter_map, same]

theorem isEmpty_eq_of_map_eq {f : α → γ} {g : β → γ} {xs : List α} {ys : List β}
    (same : xs.map f = ys.map g) : xs.isEmpty = ys.isEmpty := by
  rw [← List.isEmpty_map (f := f), same, List.isEmpty_map]

section TwoArenas

variable {scope : Scope} {a b : Arena}

namespace Class

variable {c d : Class ExprId} (same : c.map a.tree = d.map b.tree)

include same

theorem name_alike : c.name = d.name := (congrArg Class.name same :)

theorem kind_alike : c.kind = d.kind := (congrArg Class.kind same :)

theorem storedConstants_alike (v : Visibility) :
    (c.storedConstants v).map (Constant.map a.tree) =
      (d.storedConstants v).map (Constant.map b.tree) :=
  filter_map_eq (congrArg Class.constants same) fun k => k.visibility = v && k.ty.isArrayStorage

theorem fieldsOf_alike (v : Visibility) :
    (c.fieldsOf v).map (Field.map a.tree) = (d.fieldsOf v).map (Field.map b.tree) :=
  filter_map_eq (congrArg Class.fields same) (·.visibility = v)

theorem methodsOf_alike (v : Visibility) :
    (c.methodsOf v).map (Method.map a.tree) = (d.methodsOf v).map (Method.map b.tree) :=
  filter_map_eq (congrArg Class.methods same) (·.visibility = v)

theorem hasConstructorIn_alike (v : Visibility) : c.hasConstructorIn v = d.hasConstructorIn v := by
  rw [hasConstructorIn, hasConstructorIn, kind_alike same]

theorem isEmptyIn_alike (v : Visibility) : c.isEmptyIn v = d.isEmptyIn v := by
  unfold isEmptyIn
  rw [hasConstructorIn_alike same, isEmpty_eq_of_map_eq (storedConstants_alike same v),
    isEmpty_eq_of_map_eq (fieldsOf_alike same v), isEmpty_eq_of_map_eq (methodsOf_alike same v)]

theorem constructorLine_alike : c.constructorLine = d.constructorLine := by
  have body := congrArg (fun e : Class Expr => e.constructorBody.isNone) same
  simp only [map, Option.isNone_map] at body
  unfold constructorLine constructorSuffix
  rw [name_alike same, kind_alike same, body]

theorem memberLines_agree (v : Visibility) :
    Agree (c.memberLines (.mk scope a) v) (d.memberLines (.mk scope b) v) := by
  unfold memberLines
  rw [hasConstructorIn_alike same, constructorLine_alike same]
  refine Agree.bind (.mapM (storedConstants_alike same v) fun k _ l alike => ?_) fun _ =>
    Agree.bind (.mapM (fieldsOf_alike same v) fun f _ g alike => ?_) fun _ =>
      Agree.bind (.mapM (methodsOf_alike same v) fun m _ n alike => ?_) fun _ => rfl
  · obtain ⟨name, visibility, ty, value⟩ := k
    obtain ⟨name', visibility', ty', value'⟩ := l
    simp only [Constant.map, Constant.mk.injEq] at alike
    obtain ⟨rfl, rfl, rfl, tree⟩ := alike
    exact .of_eq (by rw [Env.constant_congr tree])
  · obtain ⟨name, visibility, ty, value⟩ := f
    obtain ⟨name', visibility', ty', value'⟩ := g
    simp only [Field.map, Field.mk.injEq] at alike
    obtain ⟨rfl, rfl, rfl, tree⟩ := alike
    exact .of_eq (by rw [Env.declare_congr tree])
  · have signature : m.toSignature = n.toSignature := (congrArg Method.toSignature alike :)
    exact .of_eq (by rw [signature])

/-- Classes that come to the same trees agree in the header. -/
theorem declarationLines_agree :
    Agree (c.declarationLines (.mk scope a)) (d.declarationLines (.mk scope b)) := by
  have head : c.headText scope = d.headText scope := by
    have parent : c.parent = d.parent := (congrArg Class.parent same :)
    rw [headText, headText, name_alike same, parent, kind_alike same]
  have each : ∀ s : Visibility × String,
      Agree (c.sectionLines (.mk scope a) s.1 s.2) (d.sectionLines (.mk scope b) s.1 s.2) := by
    intro s
    unfold sectionLines
    rw [isEmptyIn_alike same]
    split
    · rfl
    · exact (memberLines_agree same s.1).bind fun _ => rfl
  exact (Agree.of_eq head).bind fun _ => (Agree.mapM_same each sections).bind fun _ => rfl

/-- Classes that come to the same trees agree in the source. -/
theorem definitionLines_agree :
    Agree (c.definitionLines (.mk scope a)) (d.definitionLines (.mk scope b)) := by
  refine Agree.bind ?_ fun _ => Agree.bind
    (.mapM (congrArg Class.methods same) fun m _ n alike => ?_) fun _ => rfl
  · unfold constructorLines
    obtain ⟨absent, absent'⟩ | ⟨body, body', given, given', alike⟩ :=
      option_map_eq_map (congrArg Class.constructorBody same)
    · rw [absent, absent']
      exact .refl (.ok [])
    · rw [given, given', name_alike same]
      exact (Stmt.bodyLines_agrees alike).bind fun _ => rfl
  · obtain ⟨signature, body⟩ := m
    obtain ⟨signature', body'⟩ := n
    simp only [Method.map, Method.mk.injEq] at alike
    obtain ⟨rfl, bodies⟩ := alike
    unfold Method.definitionLines
    rw [name_alike same]
    split
    · rfl
    · obtain ⟨rfl, rfl⟩ | ⟨s, t, rfl, rfl, alike⟩ := option_map_eq_map bodies
      · rfl
      · exact (Agree.refl _).bind fun _ => (Stmt.bodyLines_agrees
          (Stmt.bodyStatements_alike alike)).bind fun _ => rfl

end Class

/-- Enumerations that come to the same trees agree. -/
theorem Enum.declarationLines_agree {e g : Enum ExprId} (same : e.map a.tree = g.map b.tree) :
    Agree (e.declarationLines (.mk scope a)) (g.declarationLines (.mk scope b)) := by
  have name : e.name = g.name := (congrArg Enum.name same :)
  unfold declarationLines
  rw [name]
  refine Agree.bind (.mapM (congrArg Enum.members same) fun m _ n alike => ?_) fun _ => rfl
  obtain ⟨name, value⟩ := m
  obtain ⟨name', value'⟩ := n
  simp only [EnumMember.map, EnumMember.mk.injEq] at alike
  obtain ⟨rfl, values⟩ := alike
  obtain ⟨rfl, rfl⟩ | ⟨i, j, rfl, rfl, tree⟩ := option_map_eq_map values
  · rfl
  · exact (Agree.of_eq (Env.plain_congr tree)).bind fun _ => rfl

end TwoArenas

end CppPrinter
