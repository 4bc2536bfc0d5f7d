import CppPrinter.Proofs.Reading.Grammar

/-!
# Expressions have one tree

A machine with a stack reads expressions token by token (`Reader.step`). It keeps what waits for
more operands on the stack, and it puts trees together as soon as a token shows where they end.
Whatever the grammar gives a tree, the machine reads to that tree, from any stack that lets an
expression of that rank come next (`Derives.runs`). The machine is a function; so no tokens have two
trees (`Derives.unique`).
-/

namespace CppPrinter

/-- What waits for an operand, or for a bracket to close. -/
inductive Frame where
  | binary (op : String) (p : Precedence) (left : Tree)
  | assign (op : String) (left : Tree)
  | prefixed (op : String)
  /-- A conditional behind its colon. -/
  | otherwise (test positive : Tree)
  /-- A conditional in front of its colon. -/
  | choice (test : Tree)
  | paren
  | index (array : Tree)
  | cast (kind : String) (ty : List Token)
  /-- The items of a list, which are the arguments of a call if there is a callee. -/
  | list (callee : Option Tree) (items : Tree)

namespace Frame

/-- How tight a frame holds the operand that comes next. Brackets do not hold it at all. -/
def level? : Frame → Option Nat
  | binary _ p _ => some p.level
  | assign .. | otherwise .. => some Precedence.assign.level
  | prefixed _ => some Precedence.primary.level
  | _ => none

/-- The frame with its last operand. -/
def apply : Frame → Tree → Tree
  | binary op _ left, t => .binary op left t
  | assign op left, t => .assign op left t
  | prefixed op, t => .prefixed op t
  | otherwise test positive, t => .cond test positive t
  | _, t => t

/-- A comma below the frame separates the items of a list. -/
def isList : Frame → Bool
  | list .. => true
  | _ => false

end Frame

/-- Puts together what holds its operand at a level or tighter. -/
def collapse (bound : Nat) : List Frame → Tree → List Frame × Tree
  | [], t => ([], t)
  | f :: rest, t =>
    match f.level? with
    | some l => if bound ≤ l then collapse bound rest (f.apply t) else (f :: rest, t)
    | none => (f :: rest, t)

/-- What stands in front of a type in angle brackets. -/
inductive TypeHead where
  | cast (kind : String)
  | template

/-- The states of the machine. -/
inductive Reader where
  /-- An operand comes next. -/
  | want (stack : List Frame)
  /-- An operand has been read, up to what may stand behind it. -/
  | got (stack : List Frame) (t : Tree)
  /-- A name comes next, behind `.`, `->` or `::`. -/
  | reach (stack : List Frame) (t : Tree) (op : String)
  /-- An angle bracket comes next. -/
  | angle (stack : List Frame) (head : TypeHead)
  /-- Inside a type and so many angle brackets. -/
  | inType (stack : List Frame) (head : TypeHead) (front : List Token) (depth : Nat)
  /-- The parenthesis of a cast comes next. -/
  | typed (stack : List Frame) (kind : String) (ty : List Token)

namespace Reader

/-- A mark where an operand is wanted. -/
def front (stack : List Frame) (m : String) : Option Reader :=
  if m ∈ prefixOps then some (want (.prefixed m :: stack))
  else if m = "(" then some (want (.paren :: stack))
  else if m = "\x7b" then some (want (.list none .nil :: stack))
  else match stack with
    | .list (some callee) .nil :: rest => if m = ")" then some (got rest (.call callee .nil)) else none
    | .list none .nil :: rest => if m = "\x7d" then some (got rest (.braces .nil)) else none
    | _ => none

/-- Closes the bracket on top of the stack behind a whole expression. -/
def close (m : String) : List Frame × Tree → Option Reader
  | (.paren :: rest, t) => if m = ")" then some (got rest t) else none
  | (.cast kind ty :: rest, t) => if m = ")" then some (got rest (.cast kind ty t)) else none
  | (.list (some callee) items :: rest, t) =>
    if m = ")" then some (got rest (.call callee (.snoc items t))) else none
  | (.list none items :: rest, t) =>
    if m = "\x7d" then some (got rest (.braces (.snoc items t))) else none
  | (.index array :: rest, t) => if m = "]" then some (got rest (.index array t)) else none
  | (.choice test :: rest, t) => if m = ":" then some (want (.otherwise test t :: rest)) else none
  | _ => none

/-- A comma behind a whole expression: the next item of a list, or an operator. -/
def comma : List Frame × Tree → Reader
  | (.list callee items :: rest, t) => want (.list callee (.snoc items t) :: rest)
  | (rest, t) => want (.binary "," .statement t :: rest)

/-- A mark behind an operand. -/
def behind (stack : List Frame) (t : Tree) (m : String) : Option Reader :=
  if m ∈ postfixOps then some (got stack (.postfixed m t))
  else if m ∈ memberOps ∨ m = "::" then some (reach stack t m)
  else if m = "[" then some (want (.index t :: stack))
  else if m = "(" then some (want (.list (some t) .nil :: stack))
  else if m ∈ [")", "]", "\x7d", ":"] then close m (collapse 0 stack t)
  else if m = "," then some (comma (collapse 0 stack t))
  else
    let looser := collapse Precedence.condOr.level stack t
    if m = "?" then some (want (.choice looser.2 :: looser.1))
    else if m ∈ assignOps then some (want (.assign m looser.2 :: looser.1))
    else match infixOps.lookup m with
      | some p =>
        let sides := collapse p.level stack t
        some (want (.binary m p sides.2 :: sides.1))
      | none => none

/-- A name behind the operator that reaches it. -/
def arrive (stack : List Frame) (t : Tree) (op name : String) : Option Reader :=
  if name ∈ keywords then none
  else if op = "::" then
    if t.qualify name = .name templatePath then some (angle stack .template)
    else some (got stack (t.qualify name))
  else some (got stack (.member t op [name]))

/-- What follows a type. -/
def closeType (stack : List Frame) (ty : List Token) : TypeHead → Reader
  | .cast kind => typed stack kind ty
  | .template => got stack (.template templatePath ty)

/-- A token inside a type. -/
def typeToken (stack : List Frame) (head : TypeHead) (front : List Token) (depth : Nat)
    (token : Token) : Option Reader :=
  if token = .mark "<" then some (inType stack head (front ++ [token]) (depth + 1))
  else if token = .mark ">" then
    if depth = 0 then some (closeType stack front head)
    else some (inType stack head (front ++ [token]) (depth - 1))
  else if token.inType then some (inType stack head (front ++ [token]) depth)
  else none

/-- Reads one token. -/
def step : Reader → Token → Option Reader
  | want stack, .word w =>
    if w ∈ castWords then some (angle stack (.cast w))
    else if namesOperand w then some (got stack (.name [w])) else none
  | want stack, .mark m => front stack m
  | want stack, token => some (got stack (.literal token))
  | got stack t, .mark m => behind stack t m
  | reach stack t op, .word name => arrive stack t op name
  | angle stack head, token => if token = .mark "<" then some (inType stack head [] 0) else none
  | inType stack head front depth, token => typeToken stack head front depth token
  | typed stack kind ty, token =>
    if token = .mark "(" then some (want (.cast kind ty :: stack)) else none
  | _, _ => none

@[simp] theorem step_want_mark (stack : List Frame) (m : String) :
    (want stack).step (.mark m) = front stack m := rfl

@[simp] theorem step_got_mark (stack : List Frame) (t : Tree) (m : String) :
    (got stack t).step (.mark m) = behind stack t m := rfl

@[simp] theorem step_want_word (stack : List Frame) (w : String) :
    (want stack).step (.word w) =
      if w ∈ castWords then some (angle stack (.cast w))
      else if namesOperand w then some (got stack (.name [w])) else none := rfl

@[simp] theorem step_reach_word (stack : List Frame) (t : Tree) (op name : String) :
    (reach stack t op).step (.word name) = arrive stack t op name := rfl

@[simp] theorem step_angle (stack : List Frame) (head : TypeHead) :
    (angle stack head).step (.mark "<") = some (inType stack head [] 0) := rfl

@[simp] theorem step_inType (stack : List Frame) (head : TypeHead) (front : List Token)
    (depth : Nat) (token : Token) :
    (inType stack head front depth).step token = typeToken stack head front depth token := rfl

@[simp] theorem step_typed (stack : List Frame) (kind : String) (ty : List Token) :
    (typed stack kind ty).step (.mark "(") = some (want (.cast kind ty :: stack)) := rfl

/-- Reads tokens one after the other. -/
def run (r : Reader) (ts : List Token) : Option Reader := ts.foldlM step r

/-- The tree of a whole expression. -/
def finish : Reader → Option Tree
  | got stack t =>
    match collapse 0 stack t with
    | ([], whole) => some whole
    | _ => none
  | _ => none

@[simp] theorem run_nil (r : Reader) : r.run [] = some r := rfl

@[simp] theorem run_cons (r : Reader) (token : Token) (ts : List Token) :
    r.run (token :: ts) = (r.step token).bind fun q => q.run ts := by
  simp [run, List.foldlM_cons]

@[simp] theorem run_append (r : Reader) (ts us : List Token) :
    r.run (ts ++ us) = (r.run ts).bind fun q => q.run us := by
  simp [run, List.foldlM_append]

end Reader

/-- The tree of tokens that are an expression. -/
def tree? (ts : List Token) : Option Tree := ((Reader.want []).run ts).bind Reader.finish

/-- A stack of frames around a tree, the first innermost, put together. -/
def unwind (inner : List Frame) (t : Tree) : Tree := inner.foldl (fun x f => f.apply x) t

/-- A run over an expression leaves frames that hold at least so tight, and they come to a tree. -/
def Leaves (bound : Nat) (stack : List Frame) (t : Tree) (r : Reader) : Prop :=
  ∃ inner x, r = .got (inner ++ stack) x ∧ (∀ f ∈ inner, ∃ l, f.level? = some l ∧ bound ≤ l) ∧
    unwind inner x = t

/-- The top of the stack holds its operand looser than a level. -/
def Stops (bound : Nat) (stack : List Frame) : Prop :=
  ∀ f ∈ stack.head?, ∀ l ∈ f.level?, l < bound

/-- An expression of a level may come next: no operator in it reaches below it. -/
def Admits (p : Precedence) (stack : List Frame) : Prop :=
  ∀ f ∈ stack.head?,
    (∀ l ∈ f.level?, p = .primary ∨ (0 < p.level ∧ l < max p.level Precedence.condOr.level)) ∧
      (f.isList = true → 0 < p.level)

/-- The least level of what an expression leaves on the stack. The loose operators group to the
right, and only a bracket or a comma ends them. -/
def leastLeft (p : Precedence) : Nat := if p.level < Precedence.condOr.level then 0 else p.level

theorem collapse_of_stops {bound : Nat} {stack : List Frame} (stops : Stops bound stack)
    (t : Tree) : collapse bound stack t = (stack, t) := by
  cases stack with
  | nil => rfl
  | cons f rest =>
    cases held : f.level? with
    | none => simp [collapse, held]
    | some l =>
      have loose : l < bound := stops f rfl l held
      simp [collapse, held, Nat.not_le.2 loose]

theorem collapse_append {bound : Nat} {inner stack : List Frame}
    (tight : ∀ f ∈ inner, ∃ l, f.level? = some l ∧ bound ≤ l) (stops : Stops bound stack)
    (x : Tree) : collapse bound (inner ++ stack) x = (stack, unwind inner x) := by
  induction inner generalizing x with
  | nil => exact collapse_of_stops stops x
  | cons f rest ih =>
    obtain ⟨l, held, le⟩ := tight f (List.mem_cons_self ..)
    have below := ih (fun g member => tight g (List.mem_cons_of_mem f member)) (f.apply x)
    simpa [collapse, held, le, unwind] using below

namespace Leaves

variable {bound : Nat} {stack : List Frame} {t : Tree} {r : Reader}

theorem loosen (h : Leaves bound stack t r) {looser : Nat} (le : looser ≤ bound) :
    Leaves looser stack t r := by
  obtain ⟨inner, x, rfl, tight, same⟩ := h
  refine ⟨inner, x, rfl, ?_, same⟩
  intro f member
  obtain ⟨l, held, above⟩ := tight f member
  exact ⟨l, held, Nat.le_trans le above⟩

/-- The frame below a run that has found its last operand becomes part of what is left. -/
theorem pop {f : Frame} (h : Leaves bound (f :: stack) t r) {looser l : Nat} (le : looser ≤ bound)
    (held : f.level? = some l) (above : looser ≤ l) : Leaves looser stack (f.apply t) r := by
  obtain ⟨inner, x, rfl, tight, rfl⟩ := h.loosen le
  refine ⟨inner ++ [f], x, by simp, ?_, by simp [unwind]⟩
  intro g member
  rcases List.mem_append.1 member with inside | last
  · exact tight g inside
  · rw [List.mem_singleton.1 last]
    exact ⟨l, held, above⟩

end Leaves

namespace Admits

variable {p : Precedence} {stack : List Frame}

/-- What admits a loose expression admits a tight one. -/
theorem tighten (h : Admits p stack) {q : Precedence} (le : p.level ≤ q.level) :
    Admits q stack := by
  intro f top
  obtain ⟨leveled, listed⟩ := h f top
  refine ⟨fun l held => ?_, fun isList => Nat.lt_of_lt_of_le (listed isList) le⟩
  rcases leveled l held with rfl | ⟨pos, loose⟩
  · left
    revert le
    cases q <;> decide
  · right
    omega

/-- Where an expression of a level may come next, an operator that groups its parts stops at the
stack. -/
theorem stops (h : Admits p stack) (noPrimary : p ≠ .primary) :
    Stops (max p.level Precedence.condOr.level) stack := by
  intro f top l held
  rcases (h f top).1 l held with primary | ⟨-, loose⟩
  · exact absurd primary noPrimary
  · exact loose

theorem stops_zero (h : Admits .statement stack) : Stops 0 stack := by
  intro f top l held
  rcases (h f top).1 l held with primary | ⟨pos, -⟩
  · cases primary
  · exact absurd pos (Nat.lt_irrefl 0)

theorem comma (h : Admits .statement stack) (t : Tree) :
    Reader.comma (stack, t) = .want (.binary "," .statement t :: stack) := by
  cases stack with
  | nil => rfl
  | cons f rest =>
    cases f with
    | list callee items => exact absurd ((h _ rfl).2 rfl) (Nat.lt_irrefl 0)
    | _ => rfl

end Admits

/-- Brackets admit any expression, and lists all but those with a comma outside of brackets. -/
theorem admits_bracket {f : Frame} (bracket : f.level? = none) {p : Precedence}
    (noList : f.isList = true → 0 < p.level) (stack : List Frame) : Admits p (f :: stack) := by
  intro g top
  cases top
  exact ⟨by simp [bracket], noList⟩

theorem admits_leveled {f : Frame} {l : Nat} (held : f.level? = some l) {p : Precedence}
    (pos : 0 < p.level) (loose : p = .primary ∨ l < max p.level Precedence.condOr.level)
    (stack : List Frame) : Admits p (f :: stack) := by
  intro g top
  cases top
  refine ⟨fun k atK => ?_, fun _ => pos⟩
  have same : l = k := by rw [held] at atK; exact Option.some.inj atK
  rw [← same]
  exact loose.imp_right fun loose => ⟨pos, loose⟩

namespace Leaves

variable {bound : Nat} {stack : List Frame} {t : Tree} {r : Reader}

/-- An operator between two operands takes what a run has left as its left one. -/
theorem step_binary {op : String} {p : Precedence} (h : Leaves (leastLeft p) stack t r)
    (atLevel : (op, p) ∈ infixOps) (admits : Admits p stack) :
    r.step (.mark op) = some (.want (.binary op p t :: stack)) := by
  obtain ⟨inner, x, rfl, tight, rfl⟩ := h
  have facts : ∀ q ∈ infixOps, infixOps.lookup q.1 = some q.2 ∧ q.1 ∉ postfixOps ∧
      q.1 ∉ memberOps ∧ q.1 ∉ ["::", "[", "(", ")", "]", "\x7d", ":", "?"] ∧ q.1 ∉ assignOps ∧
      leastLeft q.2 = q.2.level := by decide +kernel
  have levels : ∀ q ∈ infixOps, q = (",", .statement) ∨ (q.1 ≠ "," ∧ q.2 ≠ .primary ∧
      max q.2.level Precedence.condOr.level = q.2.level) := by decide +kernel
  obtain ⟨found, noStep, noMember, noBracket, noAssign, least⟩ := facts _ atLevel
  rw [least] at tight
  rcases levels _ atLevel with same | ⟨noComma, noPrimary, same⟩
  · cases same
    have whole : collapse 0 (inner ++ stack) x = (stack, unwind inner x) :=
      collapse_append tight admits.stops_zero x
    simp [Reader.behind, noStep, noMember, whole, admits.comma]
  · have stops := admits.stops noPrimary
    rw [same] at stops
    have whole := collapse_append tight stops x
    simp only [List.mem_cons, List.not_mem_nil, or_false, not_or] at noBracket
    simp [Reader.behind, noStep, noMember, noBracket, noComma, noAssign, found, whole]

/-- A closing bracket or a colon ends the whole expression in front of it. -/
theorem step_close {m : String} (h : Leaves bound stack t r) (stops : Stops 0 stack)
    (closes : m ∈ [")", "]", "\x7d", ":"]) : r.step (.mark m) = Reader.close m (stack, t) := by
  obtain ⟨inner, x, rfl, tight, rfl⟩ := h.loosen (Nat.zero_le bound)
  have facts : ∀ m ∈ [")", "]", "\x7d", ":"], m ∉ postfixOps ∧ m ∉ memberOps ∧ m ≠ "::" ∧
      m ≠ "[" ∧ m ≠ "(" := by decide
  have whole := collapse_append tight stops x
  simp [Reader.behind, facts m closes, closes, whole]

/-- The next item of a list. -/
theorem step_comma {callee : Option Tree} {items : Tree}
    (h : Leaves bound (.list callee items :: stack) t r) :
    r.step (.mark ",") = some (.want (.list callee (.snoc items t) :: stack)) := by
  obtain ⟨inner, x, rfl, tight, rfl⟩ := h.loosen (Nat.zero_le bound)
  have stops : Stops 0 (Frame.list callee items :: stack) := by
    intro f top l held
    cases top
    cases held
  have whole := collapse_append tight stops x
  simp [Reader.behind, postfixOps, memberOps, whole, Reader.comma]

/-- A conditional takes what a run has left as its condition. -/
theorem step_choice (h : Leaves Precedence.condOr.level stack t r)
    (stops : Stops Precedence.condOr.level stack) :
    r.step (.mark "?") = some (.want (.choice t :: stack)) := by
  obtain ⟨inner, x, rfl, tight, rfl⟩ := h
  have whole := collapse_append tight stops x
  simp [Reader.behind, postfixOps, memberOps, whole]

/-- An assignment takes what a run has left as its target. -/
theorem step_assign {op : String} (h : Leaves Precedence.condOr.level stack t r)
    (stops : Stops Precedence.condOr.level stack) (isAssign : op ∈ assignOps) :
    r.step (.mark op) = some (.want (.assign op t :: stack)) := by
  obtain ⟨inner, x, rfl, tight, rfl⟩ := h
  have facts : ∀ op ∈ assignOps, op ∉ postfixOps ∧ op ∉ memberOps ∧
      op ∉ ["::", "[", "(", ")", "]", "\x7d", ":", ",", "?"] := by decide
  have whole := collapse_append tight stops x
  obtain ⟨noStep, noMember, noBracket⟩ := facts op isAssign
  simp only [List.mem_cons, List.not_mem_nil, or_false, not_or] at noBracket
  simp [Reader.behind, noStep, noMember, noBracket, isAssign, whole]

end Leaves

/-- A type in angle brackets is read up to the bracket that closes it. -/
theorem run_inType {ty : List Token} {depth : Nat} (isType : closesType depth ty = true)
    (stack : List Frame) (head : TypeHead) (front : List Token) :
    (Reader.inType stack head front depth).run ty = some (.inType stack head (front ++ ty) 0) := by
  induction ty generalizing front depth with
  | nil =>
    have whole : depth = 0 := by simpa [closesType, closesBrackets] using isType
    simp [whole]
  | cons token rest ih =>
    unfold closesType closesBrackets at isType
    have further {next : Nat} (rest_closes : closesType next rest = true)
        (step : (Reader.inType stack head front depth).step token =
          some (.inType stack head (front ++ [token]) next)) :
        (Reader.inType stack head front depth).run (token :: rest) =
          some (.inType stack head (front ++ token :: rest) 0) := by
      rw [Reader.run_cons, step, Option.bind_some, ih rest_closes, List.append_assoc,
        List.singleton_append]
    split at isType
    · rename_i opens
      exact further isType (by simp [Reader.typeToken, opens])
    · rename_i noOpening
      split at isType
      · rename_i closes
        simp only [Bool.and_eq_true, decide_eq_true_eq] at isType
        obtain ⟨inner, isType⟩ := isType
        refine further isType ?_
        simp [Reader.typeToken, closes, Nat.ne_of_gt inner]
      · rename_i noClosing
        simp only [Bool.and_eq_true] at isType
        refine further isType.2 ?_
        simp [Reader.typeToken, noOpening, noClosing, isType.1]

/-- What the machine does with the tokens of an expression of a rank, whatever stack admits it. -/
def Runs : Rank → List Token → Tree → Prop
  | .tight, ts, t => ∀ stack, (Reader.want stack).run ts = some (.got stack t)
  | .level p, ts, t => ∀ stack, Admits p stack →
    ∃ r, (Reader.want stack).run ts = some r ∧ Leaves (leastLeft p) stack t r
  | .items, ts, t => (ts = [] ∧ t = .nil) ∨ ∃ front item, t = .snoc front item ∧
    ∀ callee stack, ∃ r, (Reader.want (.list callee .nil :: stack)).run ts = some r ∧
      Leaves 0 (.list callee front :: stack) item r

theorem stops_bracket {f : Frame} (bracket : f.level? = none) (bound : Nat) (stack : List Frame) :
    Stops bound (f :: stack) := by
  intro g top l held
  cases top
  rw [bracket] at held
  cases held

theorem leastLeft_mono {p q : Precedence} (le : q.level ≤ p.level) : leastLeft q ≤ leastLeft p := by
  unfold leastLeft
  split <;> split <;> omega

/-- What stands in a bracket is read up to the mark that closes it. -/
theorem Runs.bracketed {p : Precedence} {ts : List Token} {t : Tree} (h : Runs (.level p) ts t)
    {f : Frame} {m : String} (bracket : f.level? = none) (noList : f.isList = false)
    (closes : m ∈ [")", "]", "\x7d", ":"]) (stack : List Frame) :
    ∃ r, (Reader.want (f :: stack)).run ts = some r ∧
      r.step (.mark m) = Reader.close m (f :: stack, t) := by
  obtain ⟨r, ran, leaves⟩ := h (f :: stack) (admits_bracket bracket (by simp [noList]) stack)
  exact ⟨r, ran, leaves.step_close (stops_bracket bracket 0 stack) closes⟩

/-- The items of a list up to the mark that closes it. -/
theorem Runs.closeList {ts : List Token} {t : Tree} (h : Runs .items ts t) (callee : Option Tree)
    (stack : List Frame) :
    (Reader.want (.list callee .nil :: stack)).run
        (ts ++ [Token.mark (if callee.isSome then ")" else "\x7d")]) =
      some (.got stack (match callee with
        | some callee => .call callee t
        | none => .braces t)) := by
  rcases h with ⟨rfl, rfl⟩ | ⟨front, item, rfl, runs⟩
  · cases callee <;> simp [Reader.front, prefixOps]
  · obtain ⟨r, ran, leaves⟩ := runs callee stack
    have closes : (if callee.isSome then ")" else "\x7d") ∈ [")", "]", "\x7d", ":"] := by
      cases callee <;> simp
    rw [Reader.run_append, ran, Option.bind_some, Reader.run_cons,
      leaves.step_close (stops_bracket rfl 0 stack) closes]
    cases callee <;> rfl

/-- The machine reads what the grammar gives a tree to that tree. -/
theorem Derives.runs {rank : Rank} {ts : List Token} {t : Tree} (h : Derives rank ts t) :
    Runs rank ts t := by
  induction h with
  | loosen le _ ih =>
    intro stack admits
    obtain ⟨r, ran, leaves⟩ := ih stack (admits.tighten le)
    exact ⟨r, ran, leaves.loosen (leastLeft_mono le)⟩
  | @binary op p ls rs l r atLevel _ _ ihLeft ihRight =>
    intro stack admits
    have levels : ∀ q ∈ infixOps, q.2.tighter.level = q.2.level + 1 ∧
        leastLeft q.2 ≤ q.2.level ∧ q.2.level < max (q.2.level + 1) Precedence.condOr.level := by
      decide
    obtain ⟨next, above, loose⟩ := levels _ atLevel
    dsimp only at next above loose
    obtain ⟨left, ranLeft, leavesLeft⟩ := ihLeft stack admits
    have shift := leavesLeft.step_binary atLevel admits
    have admitsRight : Admits p.tighter (.binary op p l :: stack) :=
      admits_leveled rfl (by omega) (Or.inr (by rw [next]; exact loose)) stack
    obtain ⟨right, ranRight, leavesRight⟩ := ihRight (.binary op p l :: stack) admitsRight
    exact ⟨right, by simp [ranLeft, shift, ranRight],
      leavesRight.pop (leastLeft_mono (by omega)) rfl above⟩
  | @assign op ls rs l r isAssign _ _ ihLeft ihRight =>
    intro stack admits
    have admitsLeft : Admits .condOr stack := admits.tighten (by decide)
    obtain ⟨left, ranLeft, leavesLeft⟩ := ihLeft stack admitsLeft
    have shift := leavesLeft.step_assign (admitsLeft.stops (by decide)) isAssign
    have admitsRight : Admits .argument (.assign op l :: stack) :=
      admits_leveled rfl (by decide) (Or.inr (by decide)) stack
    obtain ⟨right, ranRight, leavesRight⟩ := ihRight (.assign op l :: stack) admitsRight
    exact ⟨right, by simp [ranLeft, shift, ranRight],
      leavesRight.pop (Nat.le_refl 0) rfl (Nat.zero_le _)⟩
  | @cond cs ts es c t e _ _ _ ihTest ihPositive ihNegative =>
    intro stack admits
    have admitsTest : Admits .condOr stack := admits.tighten (by decide)
    obtain ⟨test, ranTest, leavesTest⟩ := ihTest stack admitsTest
    have shift := leavesTest.step_choice (admitsTest.stops (by decide))
    obtain ⟨positive, ranPositive, colon⟩ :=
      ihPositive.bracketed (f := .choice c) (m := ":") rfl rfl (by decide) stack
    have admitsNegative : Admits .assign (.otherwise c t :: stack) :=
      admits_leveled rfl (by decide) (Or.inr (by decide)) stack
    obtain ⟨negative, ranNegative, leavesNegative⟩ := ihNegative _ admitsNegative
    refine ⟨negative, ?_, leavesNegative.pop (Nat.le_refl 0) rfl (Nat.zero_le _)⟩
    simp [ranTest, shift, ranPositive, colon, Reader.close, ranNegative]
  | @prefixed op ts t isPrefix _ ih =>
    intro stack _
    have admits : Admits .primary (.prefixed op :: stack) :=
      admits_leveled rfl (by decide) (Or.inl rfl) stack
    obtain ⟨r, ran, leaves⟩ := ih _ admits
    refine ⟨r, ?_, leaves.pop (Nat.le_refl _) rfl (by decide)⟩
    simp [Reader.front, isPrefix, ran]
  | @ofTight ts t _ ih =>
    intro stack _
    exact ⟨_, ih stack, [], t, rfl, by simp, rfl⟩
  | postfixed isPostfix _ ih =>
    intro stack
    simp [ih stack, Reader.behind, isPostfix]
  | @index ts is t i _ _ ihArray ihPosition =>
    intro stack
    obtain ⟨r, ran, closed⟩ :=
      ihPosition.bracketed (f := .index t) (m := "]") rfl rfl (by decide) stack
    simp [ihArray stack, Reader.behind, postfixOps, memberOps, ran, closed,
      Reader.close]
  | @call ts as t a _ _ ihCallee ihItems =>
    intro stack
    have items := ihItems.closeList (some t) stack
    simp only [Option.isSome_some, if_true] at items
    rw [Reader.run_append, ihCallee stack, Option.bind_some, Reader.run_cons]
    simpa [Reader.behind, postfixOps, memberOps] using items
  | @member op name ts t isMember free _ ih =>
    intro stack
    have facts : ∀ op ∈ memberOps, op ∉ postfixOps ∧ op ≠ "::" := by decide
    simp [ih stack, Reader.behind, Reader.arrive, facts op isMember, isMember, free]
  | @qualify name ts t free noTemplate _ ih =>
    intro stack
    simp [ih stack, Reader.behind, postfixOps, Reader.arrive, free, noTemplate]
  | @name word operand =>
    intro stack
    have noCast : word ∉ castWords := by
      rintro isCast
      revert operand
      revert word
      decide
    simp [noCast, operand]
  | @literal token isLiteral =>
    intro stack
    cases token with
    | number | literal => rfl
    | word | mark => cases isLiteral
  | @paren ts t _ ih =>
    intro stack
    obtain ⟨r, ran, closed⟩ := ih.bracketed (f := .paren) (m := ")") rfl rfl (by decide) stack
    simp [Reader.front, prefixOps, ran, closed, Reader.close]
  | braces _ ih =>
    intro stack
    have items := ih.closeList none stack
    simp only [Option.isSome_none] at items
    simpa [Reader.front, prefixOps] using items
  | @cast kind ty ts t isCast isType _ ih =>
    intro stack
    obtain ⟨r, ran, closed⟩ :=
      ih.bracketed (f := .cast kind ty) (m := ")") rfl rfl (by decide) stack
    have inType := run_inType isType stack (.cast kind) []
    simp [isCast, inType, Reader.typeToken, Reader.closeType, ran, closed,
      Reader.close]
  | @template ty isType =>
    intro stack
    have inType := run_inType isType stack .template []
    have free : "make_shared" ∉ keywords := by decide
    simp [castWords, show namesOperand "std" = true by decide, Reader.behind,
      postfixOps, Reader.arrive, free, Tree.qualify, templatePath, inType, Reader.typeToken,
      Reader.closeType]
  | noItem => exact Or.inl ⟨rfl, rfl⟩
  | @firstItem ts t _ ih =>
    refine Or.inr ⟨.nil, t, rfl, fun callee stack => ?_⟩
    exact ih _ (admits_bracket rfl (fun _ => by decide) stack)
  | @nextItem fs ts f t some _ _ ihFront ih =>
    rcases ihFront with ⟨-, rfl⟩ | ⟨front, item, rfl, runs⟩
    · exact absurd rfl some
    · refine Or.inr ⟨_, t, rfl, fun callee stack => ?_⟩
      obtain ⟨q, ranFront, leavesFront⟩ := runs callee stack
      have comma := leavesFront.step_comma
      obtain ⟨r, ran, leaves⟩ := ih (.list callee (.snoc front item) :: stack)
        (admits_bracket rfl (fun _ => by decide) stack)
      exact ⟨r, by simp [ranFront, comma, ran], leaves⟩

/-- Tokens that are an expression are read to its tree. -/
theorem Derives.tree?_eq {ts : List Token} {t : Tree}
    (h : Derives (.level .statement) ts t) : tree? ts = some t := by
  have admits : Admits .statement [] := fun f top => nomatch top
  obtain ⟨r, ran, inner, x, rfl, tight, rfl⟩ := h.runs [] admits
  have whole : collapse 0 (inner ++ []) x = ([], unwind inner x) :=
    collapse_append tight admits.stops_zero x
  rw [tree?, ran, Option.bind_some, Reader.finish, whole]

/-- No tokens have two trees. -/
theorem Derives.unique {p : Precedence} {ts : List Token} {t u : Tree}
    (h : Derives (.level p) ts t) (h' : Derives (.level .statement) ts u) : u = t := by
  have le : Precedence.statement.level ≤ p.level := Nat.zero_le p.level
  have left := (h.loosen le).tree?_eq
  exact Option.some.inj (h'.tree?_eq.symm.trans left)

/-- The tree of a text that is an expression. -/
def read? (text : String) : Option Tree := (lex? text).bind tree?

theorem Reads.read?_eq {text : String} {t : Tree} (h : Reads text t) : read? text = some t := by
  obtain ⟨ts, spells, derives⟩ := h
  rw [read?, lex?_eq_some_iff.2 spells, Option.bind_some, derives.tree?_eq]

/-- No text has two trees. -/
theorem ReadsAt.unique {p : Precedence} {text : String} {t u : Tree} (h : ReadsAt p text t)
    (h' : Reads text u) : u = t := by
  obtain ⟨ts, spells, derives⟩ := h
  obtain ⟨us, spells', derives'⟩ := h'
  rw [spells.unique spells'] at derives
  exact derives.unique derives'

end CppPrinter
