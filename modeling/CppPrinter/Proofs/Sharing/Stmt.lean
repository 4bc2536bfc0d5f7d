import CppPrinter.Proofs.Sharing.Agree
import CppPrinter.Proofs.Reference.Member

/-!
# Statements with the same expressions

Replacing every expression of a statement by its tree (`Stmt.map`) leaves what the statement is
printed from: two statements over two arenas that come to the same agree in print
(`Stmt.render_agrees`).
-/

namespace CppPrinter

variable {α β γ : Type} {f : α → β} {g : β → γ} {h : α → γ}

/-- Functions that fit on what an option holds fit on the option. -/
theorem option_map_map_eq {x : Option α} (fits : ∀ v ∈ x.toList, g (f v) = h v) :
    (x.map f).map g = x.map h := by
  rw [Option.map_map]
  exact Option.map_congr fun v member => fits v (Option.mem_toList.2 member)

theorem list_map_map_eq {xs : List α} (fits : ∀ x ∈ xs, g (f x) = h x) :
    (xs.map f).map g = xs.map h := by
  rw [List.map_map]
  exact List.map_congr_left fits

namespace Stmt

mutual

/-- Replaces every expression, also of the statements inside. -/
def map (f : α → β) : Stmt α → Stmt β
  | block body => .block (mapAll f body)
  | declare name ty value => .declare name ty (value.map f)
  | constant name ty value => .constant name ty (f value)
  | evaluate value => .evaluate (f value)
  | ret value => .ret (value.map f)
  | branch test positive negative => .branch (f test) (map f positive) (mapOption f negative)
  | whileLoop test body => .whileLoop (f test) (map f body)
  | doLoop body test => .doLoop (map f body) (f test)
  | forLoop start test advance body =>
    .forLoop (mapOption f start) (test.map f) (advance.map f) (map f body)
  | breakLoop => .breakLoop
  | continueLoop => .continueLoop
  | switch value cases otherwise =>
    .switch (f value) (mapCases f cases) (mapDefault f otherwise)
  | throwing value => .throwing (f value)

def mapOption (f : α → β) : Option (Stmt α) → Option (Stmt β)
  | none => none
  | some s => some (map f s)

def mapAll (f : α → β) : List (Stmt α) → List (Stmt β)
  | [] => []
  | s :: rest => map f s :: mapAll f rest

def mapDefault (f : α → β) : Option (List (Stmt α)) → Option (List (Stmt β))
  | none => none
  | some body => some (mapAll f body)

def mapCases (f : α → β) :
    List (List α × List (Stmt α)) → List (List β × List (Stmt β))
  | [] => []
  | (labels, body) :: rest => (labels.map f, mapAll f body) :: mapCases f rest

end

@[simp] theorem mapAll_eq (f : α → β) (body : List (Stmt α)) : mapAll f body = body.map (map f) := by
  induction body with
  | nil => rfl
  | cons s rest ih => rw [mapAll, ih, List.map_cons]

@[simp] theorem mapOption_eq (f : α → β) (s : Option (Stmt α)) : mapOption f s = s.map (map f) := by
  cases s <;> rfl

@[simp] theorem mapDefault_eq (f : α → β) (body : Option (List (Stmt α))) :
    mapDefault f body = body.map (List.map (map f)) := by
  cases body with
  | none => rfl
  | some body => rw [mapDefault, mapAll_eq, Option.map_some]

@[simp] theorem mapCases_eq (f : α → β) (cases : List (List α × List (Stmt α))) :
    mapCases f cases = cases.map fun group => (group.1.map f, group.2.map (map f)) := by
  induction cases with
  | nil => rfl
  | cons group rest ih => rw [mapCases, mapAll_eq, ih, List.map_cons]

/-- Replacing expressions twice replaces them once, where the functions fit on the expressions that
stand in the statement. -/
theorem map_map_eq {s : Stmt α}
    (fits : s.Every fun t => ∀ x ∈ t.values, g (f x) = h x) : (s.map f).map g = s.map h := by
  induction s using Stmt.induction with
  | step s ih =>
  obtain ⟨here, below⟩ := fits.parts
  have inside : ∀ t ∈ s.children, (t.map f).map g = t.map h := fun t member =>
    ih t member (below t member)
  cases s with
  | block body =>
    have same : (body.map (map f)).map (map g) = body.map (map h) := list_map_map_eq inside
    simp only [map, mapAll_eq, same]
  | declare name ty value => simp only [map, option_map_map_eq here]
  | constant name ty value => simp only [map, here value (List.mem_singleton_self value)]
  | evaluate value => simp only [map, here value (List.mem_singleton_self value)]
  | ret value => simp only [map, option_map_map_eq here]
  | branch test positive negative =>
    obtain ⟨first, second⟩ := List.forall_mem_cons.1 inside
    simp only [map, mapOption_eq, here test (List.mem_singleton_self test), first,
      option_map_map_eq second]
  | whileLoop test body =>
    simp only [map, here test (List.mem_singleton_self test),
      inside body (List.mem_singleton_self body)]
  | doLoop body test =>
    simp only [map, here test (List.mem_singleton_self test),
      inside body (List.mem_singleton_self body)]
  | forLoop start test advance body =>
    obtain ⟨tests, advances⟩ := List.forall_mem_append.1 here
    obtain ⟨first, second⟩ := List.forall_mem_append.1 inside
    simp only [map, mapOption_eq, option_map_map_eq first, option_map_map_eq tests,
      option_map_map_eq advances, second body (List.mem_singleton_self body)]
  | breakLoop | continueLoop => rfl
  | switch value cases otherwise =>
    obtain ⟨first, labels⟩ := List.forall_mem_cons.1 here
    obtain ⟨groups, last⟩ := List.forall_mem_append.1 inside
    have inCases : ∀ group ∈ cases, ((group.1.map f).map g, (group.2.map (map f)).map (map g)) =
        (group.1.map h, group.2.map (map h)) := by
      intro group member
      have sameLabels : (group.1.map f).map g = group.1.map h :=
        list_map_map_eq fun x listed => labels x (List.mem_flatMap.2 ⟨group, member, listed⟩)
      rw [sameLabels, list_map_map_eq fun t listed =>
        groups t (List.mem_flatMap.2 ⟨group, member, listed⟩)]
    have defaults : (otherwise.map (List.map (map f))).map (List.map (map g)) =
        otherwise.map (List.map (map h)) := by
      cases otherwise with
      | none => rfl
      | some body => exact congrArg some (list_map_map_eq last)
    simp only [map, mapCases_eq, mapDefault_eq, first, defaults]
    rw [List.map_map]
    exact congrArg (Stmt.switch _ · _) (List.map_congr_left inCases)
  | throwing value => simp only [map, here value (List.mem_singleton_self value)]

@[simp] theorem map_id (s : Stmt α) : s.map id = s := by
  induction s using Stmt.induction with
  | step s ih =>
  have statements : ∀ body : List (Stmt α), (∀ t ∈ body, t.map id = t) → body.map (map id) = body :=
    fun body each => (List.map_congr_left each).trans (List.map_id' body)
  have alternatives : ∀ x : Option (Stmt α), (∀ t ∈ x.toList, t.map id = t) →
      x.map (map id) = x := by
    intro x each
    cases x with
    | none => rfl
    | some t => exact congrArg some (each t (List.mem_singleton_self t))
  cases s with
  | block body => simp only [map, mapAll_eq, statements body ih]
  | branch test positive negative =>
    obtain ⟨first, second⟩ := List.forall_mem_cons.1 ih
    simp only [map, mapOption_eq, first, alternatives negative second, id_eq]
  | whileLoop test body | doLoop body test =>
    simp only [map, ih body (List.mem_singleton_self body), id_eq]
  | forLoop start test advance body =>
    obtain ⟨first, second⟩ := List.forall_mem_append.1 ih
    simp only [map, mapOption_eq, alternatives start first, Option.map_id_fun, id_eq,
      second body (List.mem_singleton_self body)]
  | switch value cases otherwise =>
    obtain ⟨groups, last⟩ := List.forall_mem_append.1 ih
    have inCases : ∀ group ∈ cases, (group.1.map id, group.2.map (map id)) = group := by
      intro group member
      rw [List.map_id, statements group.2 fun t listed =>
        groups t (List.mem_flatMap.2 ⟨group, member, listed⟩)]
    have defaults : otherwise.map (List.map (map id)) = otherwise := by
      cases otherwise with
      | none => rfl
      | some body => exact congrArg some (statements body last)
    simp only [map, mapCases_eq, mapDefault_eq, defaults, id_eq]
    exact congrArg (Stmt.switch value · otherwise)
      ((List.map_congr_left inCases).trans (List.map_id' cases))
  | _ => simp [map]

end Stmt

/-! ### The expressions of a statement -/

section TwoArenas

variable {scope : Scope} {a b : Arena} {i j : ExprId}

/-- The literal at a position is that of the tree. -/
theorem Arena.literal?_node (a : Arena) (id : ExprId) :
    Node.literal? <$> a.node id = (a.tree id).literal? := by
  have byEntry : a.tree id = a.nodes[id.index]?.elim .dangling fun n =>
      .node (n.map fun operand _ => a.unfold (a.depth - 1) operand) := by
    by_cases empty : a.nodes.size = 0
    · have nothing : a.nodes[id.index]? = none := Array.getElem?_eq_none_iff.2 (by omega)
      simp [tree, depth, empty, unfold]
    · obtain ⟨depth, deep⟩ : ∃ d, a.depth = d + 1 := ⟨a.depth - 1, by unfold Arena.depth; omega⟩
      rw [tree, deep, unfold]
      cases a.nodes[id.index]? <;> rfl
  rw [byEntry, node, lookUp]
  cases a.nodes[id.index]? with
  | none => rfl
  | some n => obtain ⟨shape, ty⟩ := n; cases shape <;> rfl

namespace Env

/-- Positions that stand for one tree are printed alike, in whatever arenas they are. -/
theorem text_congr (same : a.tree i = b.tree j) (form : Form) :
    (Env.mk scope a).text i form = (Env.mk scope b).text j form := by
  rw [text_eq, text_eq]
  exact congrArg (fun e => e.text scope form .statement) same

theorem plain_congr (same : a.tree i = b.tree j) :
    (Env.mk scope a).plain i = (Env.mk scope b).plain j := text_congr same _

theorem coerced_congr (same : a.tree i = b.tree j) (target : Ty) :
    (Env.mk scope a).coerced target i = (Env.mk scope b).coerced target j := text_congr same _

/-- An initial value is printed from its tree. That of an inline array is looked at and not printed, but
all that is looked at is whether it is a literal. -/
theorem initializer_congr {x y : Option ExprId} (same : x.map a.tree = y.map b.tree)
    (name : String) (ty : Ty) :
    (Env.mk scope a).initializer name ty x = (Env.mk scope b).initializer name ty y := by
  obtain ⟨rfl, rfl⟩ | ⟨i, j, rfl, rfl, tree⟩ := option_map_eq_map same
  · cases ty <;> rfl
  · have looked : Node.literal? <$> a.node i = Node.literal? <$> b.node j := by
      rw [Arena.literal?_node, Arena.literal?_node, tree]
    cases ty with
    | arrayStorage element length =>
      change (a.node i >>= _) = (b.node j >>= _)
      obtain ⟨e, first, second⟩ | ⟨m, n, first, second, literal⟩ := result_map_eq_map looked
      · rw [first, second]
      · simp only [first, second, ok_bind, literal]
    | string kind =>
      cases kind with
      | view =>
        exact congrArg (fun text : Rendered String => do return " = " ++ (← text))
          (coerced_congr tree _)
      | owned =>
        exact congrArg (fun text : Rendered String => do return "\x7b" ++ (← text) ++ "\x7d")
          (coerced_congr tree _)
    | _ =>
      exact congrArg (fun text : Rendered String => do return " = " ++ (← text))
        (coerced_congr tree _)

theorem declare_congr {x y : Option ExprId} (same : x.map a.tree = y.map b.tree) (name : String)
    (ty : Ty) : (Env.mk scope a).declare name ty x = (Env.mk scope b).declare name ty y := by
  unfold declare
  rw [initializer_congr same]

theorem constant_congr (same : a.tree i = b.tree j) (name : String) (ty : Ty) :
    (Env.mk scope a).constant name ty i = (Env.mk scope b).constant name ty j := by
  unfold constant
  rw [plain_congr same]

theorem headPart_congr {x y : Option ExprId} (same : x.map a.tree = y.map b.tree) :
    (Env.mk scope a).headPart x = (Env.mk scope b).headPart y := by
  obtain ⟨rfl, rfl⟩ | ⟨i, j, rfl, rfl, tree⟩ := option_map_eq_map same
  · rfl
  · rw [headPart, headPart, plain_congr tree]

theorem returned_congr (same : a.tree i = b.tree j) (returnType : Option Ty) :
    (Env.mk scope a).returned returnType i = (Env.mk scope b).returned returnType j := by
  cases returnType with
  | none => exact plain_congr same
  | some ty => exact coerced_congr same ty

theorem localConstant_congr (same : a.tree i = b.tree j) (name : String) (ty : Ty) :
    (Env.mk scope a).localConstant name ty i = (Env.mk scope b).localConstant name ty j := by
  unfold localConstant
  rw [constant_congr same]

theorem labels_agree {is js : List ExprId} (same : is.map a.tree = js.map b.tree) :
    Agree ((Env.mk scope a).labels is) ((Env.mk scope b).labels js) :=
  Agree.mapM same fun _ _ _ tree => .of_eq (by rw [plain_congr tree])

/-- What a loop starts with. The error of a start that does not fit shows it with its positions. -/
theorem loopStart_agrees {x y : Option (Stmt ExprId)}
    (same : x.map (Stmt.map a.tree) = y.map (Stmt.map b.tree)) :
    Agree ((Env.mk scope a).loopStart x) ((Env.mk scope b).loopStart y) := by
  obtain ⟨rfl, rfl⟩ | ⟨s, t, rfl, rfl, alike⟩ := option_map_eq_map same
  · rfl
  · cases s with
    | declare name ty value =>
      cases t with
      | declare name' ty' value' =>
        simp only [Stmt.map, Stmt.declare.injEq] at alike
        obtain ⟨rfl, rfl, values⟩ := alike
        exact .of_eq (declare_congr values name ty)
      | _ => cases alike
    | evaluate value =>
      cases t with
      | evaluate value' => exact .of_eq (plain_congr (Stmt.evaluate.inj alike))
      | _ => cases alike
    | _ =>
      cases t with
      | declare | evaluate => cases alike
      | _ => exact .errors

end Env

namespace Stmt

variable {returnType : Option Ty}

/-- Statements one after the other, where those that look the same agree. -/
theorem renderAll_agrees {xs ys : List (Stmt ExprId)}
    (same : xs.map (map a.tree) = ys.map (map b.tree))
    (each : ∀ s ∈ xs, ∀ t : Stmt ExprId, s.map a.tree = t.map b.tree →
      Agree (s.render (.mk scope a) returnType) (t.render (.mk scope b) returnType)) :
    Agree (renderAll (.mk scope a) returnType xs) (renderAll (.mk scope b) returnType ys) := by
  rw [renderAll_eq_mapM, renderAll_eq_mapM]
  exact .mapM same each

theorem renderOption_agrees {x y : Option (Stmt ExprId)}
    (same : x.map (map a.tree) = y.map (map b.tree))
    (each : ∀ s ∈ x.toList, ∀ t : Stmt ExprId, s.map a.tree = t.map b.tree →
      Agree (s.render (.mk scope a) returnType) (t.render (.mk scope b) returnType)) :
    Agree (renderOption (.mk scope a) returnType x) (renderOption (.mk scope b) returnType y) := by
  obtain ⟨rfl, rfl⟩ | ⟨s, t, rfl, rfl, alike⟩ := option_map_eq_map same
  · rfl
  · exact (each s (List.mem_singleton_self s) t alike).bind fun _ => rfl

theorem renderDefault_agrees {x y : Option (List (Stmt ExprId))}
    (same : x.map (List.map (map a.tree)) = y.map (List.map (map b.tree)))
    (each : ∀ s ∈ x.getD [], ∀ t : Stmt ExprId, s.map a.tree = t.map b.tree →
      Agree (s.render (.mk scope a) returnType) (t.render (.mk scope b) returnType)) :
    Agree (renderDefault (.mk scope a) returnType x)
      (renderDefault (.mk scope b) returnType y) := by
  obtain ⟨rfl, rfl⟩ | ⟨xs, ys, rfl, rfl, alike⟩ := option_map_eq_map same
  · rfl
  · exact (renderAll_agrees alike each).bind fun _ => rfl

theorem renderCases_agrees {xs ys : List (List ExprId × List (Stmt ExprId))}
    (same : xs.map (fun group => (group.1.map a.tree, group.2.map (map a.tree))) =
      ys.map fun group => (group.1.map b.tree, group.2.map (map b.tree)))
    (each : ∀ s ∈ xs.flatMap Prod.snd, ∀ t : Stmt ExprId, s.map a.tree = t.map b.tree →
      Agree (s.render (.mk scope a) returnType) (t.render (.mk scope b) returnType)) :
    Agree (renderCases (.mk scope a) returnType xs) (renderCases (.mk scope b) returnType ys) := by
  induction xs generalizing ys with
  | nil =>
    cases ys with
    | nil => rfl
    | cons group rest => cases same
  | cons group rest ih =>
    cases ys with
    | nil => cases same
    | cons group' rest' =>
      obtain ⟨labels, body⟩ := group
      obtain ⟨labels', body'⟩ := group'
      simp only [List.map_cons, List.cons.injEq, Prod.mk.injEq] at same
      obtain ⟨⟨sameLabels, sameBody⟩, later⟩ := same
      obtain ⟨first, others⟩ := List.forall_mem_append.1 each
      rw [renderCases, renderCases]
      exact (Env.labels_agree sameLabels).bind fun _ =>
        (renderAll_agrees sameBody first).bind fun _ => (ih later others).bind fun _ => rfl

/-- Statements that come to the same trees agree in print. -/
theorem render_agrees {s t : Stmt ExprId} (same : s.map a.tree = t.map b.tree) :
    Agree (s.render (.mk scope a) returnType) (t.render (.mk scope b) returnType) := by
  induction s using Stmt.induction generalizing t with
  | step s ih =>
  cases s with
  | block body =>
    cases t with
    | block body' =>
      simp only [map, mapAll_eq, block.injEq] at same
      exact (renderAll_agrees same fun s member t => ih s member).bind fun _ => rfl
    | _ => cases same
  | declare name ty value =>
    cases t with
    | declare name' ty' value' =>
      simp only [map, declare.injEq] at same
      obtain ⟨rfl, rfl, values⟩ := same
      exact .of_eq (by rw [render, render, Env.declare_congr values])
    | _ => cases same
  | constant name ty value =>
    cases t with
    | constant name' ty' value' =>
      simp only [map, constant.injEq] at same
      obtain ⟨rfl, rfl, tree⟩ := same
      exact .of_eq (by rw [render, render, Env.localConstant_congr tree])
    | _ => cases same
  | evaluate value =>
    cases t with
    | evaluate value' => exact .of_eq (by rw [render, render, Env.plain_congr (evaluate.inj same)])
    | _ => cases same
  | ret value =>
    cases t with
    | ret value' =>
      simp only [map, ret.injEq] at same
      obtain ⟨rfl, rfl⟩ | ⟨i, j, rfl, rfl, tree⟩ := option_map_eq_map same
      · rfl
      · exact .of_eq (by rw [render, render, Env.returned_congr tree])
    | _ => cases same
  | branch test positive negative =>
    cases t with
    | branch test' positive' negative' =>
      simp only [map, mapOption_eq, branch.injEq] at same
      obtain ⟨tests, positives, negatives⟩ := same
      obtain ⟨first, second⟩ := List.forall_mem_cons.1 ih
      exact (Agree.of_eq (Env.plain_congr tests)).bind fun _ => (first positives).bind fun _ =>
        (renderOption_agrees negatives fun s member t => second s member).bind fun _ => rfl
    | _ => cases same
  | whileLoop test body =>
    cases t with
    | whileLoop test' body' =>
      simp only [map, whileLoop.injEq] at same
      exact (Agree.of_eq (Env.plain_congr same.1)).bind fun _ =>
        (ih body (List.mem_singleton_self body) same.2).bind fun _ => rfl
    | _ => cases same
  | doLoop body test =>
    cases t with
    | doLoop body' test' =>
      simp only [map, doLoop.injEq] at same
      exact (ih body (List.mem_singleton_self body) same.1).bind fun _ =>
        (Agree.of_eq (Env.plain_congr same.2)).bind fun _ => rfl
    | _ => cases same
  | forLoop start test advance body =>
    cases t with
    | forLoop start' test' advance' body' =>
      simp only [map, mapOption_eq, forLoop.injEq] at same
      obtain ⟨starts, tests, advances, bodies⟩ := same
      exact (Env.loopStart_agrees starts).bind fun _ =>
        (Agree.of_eq (Env.headPart_congr tests)).bind fun _ =>
          (Agree.of_eq (Env.headPart_congr advances)).bind fun _ =>
            (ih body (List.mem_append_right _ (List.mem_singleton_self body)) bodies).bind
              fun _ => rfl
    | _ => cases same
  | breakLoop =>
    cases t with
    | breakLoop => rfl
    | _ => cases same
  | continueLoop =>
    cases t with
    | continueLoop => rfl
    | _ => cases same
  | switch value cases otherwise =>
    cases t with
    | switch value' cases' otherwise' =>
      simp only [map, mapCases_eq, mapDefault_eq, switch.injEq] at same
      obtain ⟨values, groups, defaults⟩ := same
      obtain ⟨first, second⟩ := List.forall_mem_append.1 ih
      exact (Agree.of_eq (Env.plain_congr values)).bind fun _ =>
        (renderCases_agrees groups fun s member t => first s member).bind fun _ =>
          (renderDefault_agrees defaults fun s member t => second s member).bind fun _ => rfl
    | _ => cases same
  | throwing value =>
    cases t with
    | throwing value' => rfl
    | _ => cases same

/-- A body that comes to the same trees consists of statements that do. -/
theorem bodyStatements_alike {s t : Stmt ExprId} (same : s.map a.tree = t.map b.tree) :
    s.bodyStatements.map (map a.tree) = t.bodyStatements.map (map b.tree) := by
  have commutes : ∀ (c : Arena) (s : Stmt ExprId),
      s.bodyStatements.map (map c.tree) = (s.map c.tree).bodyStatements := by
    intro c s
    cases s <;> simp [bodyStatements, map]
  rw [commutes, commutes, same]

/-- So do lists of statements. -/
theorem bodyLines_agrees {xs ys : List (Stmt ExprId)}
    (same : xs.map (map a.tree) = ys.map (map b.tree)) :
    Agree (bodyLines (.mk scope a) returnType xs) (bodyLines (.mk scope b) returnType ys) :=
  (renderAll_agrees same fun _ _ _ => render_agrees).bind fun _ => rfl

end Stmt

end TwoArenas

end CppPrinter
