import CppPrinter.Proofs.Expr.Member
import CppPrinter.Proofs.Output.Agreement
import CppPrinter.Proofs.Text.CamelCase

/-!
# Members by their names

A member goes by one name in both files: its declaration, its definition and every reference to it are
frames around the same text (`Class.Naming`, `Enum.Naming`). That text is the name in camel case and can be
no other (`Class.Naming.eq_camelCase`), so the names of members are apart exactly when camel case keeps them
apart (`members_named_apart_iff`).
-/

namespace CppPrinter

/-! ### Members of a class -/

namespace Class

/-- What a class declares under a name. -/
inductive Member where
  | constant (k : Constant ExprId)
  | field (f : Field ExprId)
  | method (m : Method ExprId)

namespace Member

def name : Member → String
  | constant k => k.name
  | field f => f.name
  | method m => m.name

/-- The line of the member in the definition of the class. -/
def entry : Member → Entry
  | constant k => .constant k
  | field f => .field f
  | method m => .method m

/-- What stands around the name where the member is declared. -/
def frame (env : Env) : Member → Rendered (String × String)
  | constant k => do
    let ty ← k.ty.spelling env.scope true
    return ("static constexpr " ++ declarator ty "", " = " ++ (← env.plain k.value) ++ ";")
  | field f => do
    let ty ← f.ty.spelling env.scope true
    return (declarator ty "", (← env.initializer f.name f.ty f.value) ++ ";")
  | method m => do
    let f ← m.toSignature.frame env.scope
    return (m.dispatch.specifier ++ f.lead, f.tail ++ m.dispatch.qualifier ++ ";")

/-- The reference leads to the member of the class. -/
def IsReferredBy (id : ClassId) (c : Class ExprId) : Member → Reference → Prop
  | constant k, r => r = .constant id k.name
  | field f, r => r = .field id f.name
  | method m, r => ∃ index, r = .method id index ∧ c.methods[index]? = some m

end Member

/-- The constants that need storage, the fields and the methods. -/
def members (c : Class ExprId) : List Member :=
  (c.constants.filter (·.ty.isArrayStorage)).map .constant ++ c.fields.map .field ++ c.methods.map .method

/-- The members of the class go by these names: under them they are declared in the header and defined in
the source, and everything that refers to them does so by them. -/
structure Naming (env : Env) (id : ClassId) (c : Class ExprId) (page : Page) (names : Member → String) :
    Prop where
  declared : ∀ m ∈ c.members, ∃ lead tail, m.frame env = .ok (lead, tail) ∧
    (∃ line, (m.entry, line) ∈ page.entries) ∧
    ∀ line, (m.entry, line) ∈ page.entries → line = .code 1 (lead ++ names m ++ tail)
  defined : ∀ m d, (m, d) ∈ page.methods → ∃ f, m.toSignature.frame env.scope = .ok f ∧
    d.signature = f.around (c.name ++ "::" ++ names (.method m))
  referred : ∀ m ∈ c.members, ∀ r, m.IsReferredBy id c r → ∀ n : Node (Unit → Expr),
    n.shape.reference? = some r → ∀ position text,
      (Expr.node n).text env.scope .plain position = .ok text →
        ∃ lead tail, n.shape.Surrounds env.scope lead tail ∧ text = lead ++ names m ++ tail

variable {env : Env} {id : ClassId} {c : Class ExprId} {page : Page} {names : Member → String}

theorem entry_mem_entries {m : Member} (member : m ∈ c.members) : m.entry ∈ c.entries := by
  simp only [members, List.mem_append, List.mem_map, List.mem_filter] at member
  obtain (⟨k, stored, rfl⟩ | ⟨f, listed, rfl⟩) | ⟨m, listed, rfl⟩ := member
  · exact c.constant_mem_entries_iff.2 stored
  · exact c.field_mem_entries_iff.2 listed
  · exact c.method_mem_entries_iff.2 listed

/-- The initial value does not depend on the name, which only an error mentions. -/
theorem initializer_congr {name other text : String} {ty : Ty} {value : Option ExprId}
    (printed : env.initializer name ty value = .ok text) : env.initializer other ty value = .ok text := by
  unfold Env.initializer at printed ⊢
  split at printed
  · exact printed
  · obtain ⟨n, looked, printed⟩ := bind_eq_ok_iff.1 printed
    rw [looked, ok_bind]
    split at printed
    · split at printed
      · rename_i isDefault
        simpa only [isDefault, if_true] using printed
      · cases printed
    · cases printed
  · exact printed
  · exact printed

/-- The line of a member is its frame around its name in camel case. -/
theorem Member.line_eq {m : Member} {line : Line} (printed : m.entry.line env c = .ok line) :
    ∃ lead tail, m.frame env = .ok (lead, tail) ∧ line = .code 1 (lead ++ camelCase m.name ++ tail) := by
  cases m with
  | constant k =>
    simp only [entry, Entry.line, Env.constant, Ty.declaration, map_eq_ok_iff, bind_eq_ok_iff,
      pure_eq_ok, Except.ok.injEq] at printed
    obtain ⟨_, ⟨_, ⟨_, ⟨ty, spelled, rfl⟩, value, given, rfl⟩, rfl⟩, rfl⟩ := printed
    have framed : (constant k).frame env =
        .ok ("static constexpr " ++ declarator ty "", " = " ++ value ++ ";") := by
      simp [frame, spelled, given]
    exact ⟨_, _, framed, by
      simp [name, Line.flush, Line.indent, declarator_eq _ (camelCase k.name), String.append_assoc]⟩
  | field f =>
    simp only [entry, Entry.line, Env.declare, Ty.declaration, map_eq_ok_iff, bind_eq_ok_iff,
      pure_eq_ok, Except.ok.injEq] at printed
    obtain ⟨_, ⟨_, ⟨_, ⟨ty, spelled, rfl⟩, value, given, rfl⟩, rfl⟩, rfl⟩ := printed
    have framed : (field f).frame env = .ok (declarator ty "", value ++ ";") := by
      simp [frame, spelled, initializer_congr given]
    exact ⟨_, _, framed, by
      simp [name, Line.flush, Line.indent, declarator_eq _ (camelCase f.name), String.append_assoc]⟩
  | method m =>
    simp only [entry, Entry.line, Signature.declarationLine_eq, map_eq_ok_iff, bind_eq_ok_iff,
      pure_eq_ok, Except.ok.injEq] at printed
    obtain ⟨_, ⟨f, spelled, rfl⟩, rfl⟩ := printed
    have framed : (method m).frame env =
        .ok (m.dispatch.specifier ++ f.lead, f.tail ++ m.dispatch.qualifier ++ ";") := by
      simp [frame, spelled]
    exact ⟨_, _, framed, by
      simp [name, Line.flush, Line.indent, Signature.Frame.around, String.append_assoc]⟩

/-- What refers to a member knows it by the name that the member has. -/
theorem Member.name?_eq {m : Member} {r : Reference} (declared : env.scope.class? id = .ok c.head)
    (refers : m.IsReferredBy id c r) : r.name? env.scope = .ok m.name := by
  cases m with
  | constant k =>
    cases refers
    rfl
  | field f =>
    cases refers
    rfl
  | method m =>
    obtain ⟨index, rfl, listed⟩ := refers
    simp [Reference.name?, Scope.method, declared, head, listed, name]

/-- The members of a class that is printed go by their names in camel case. -/
theorem IsPrinted.naming (h : c.IsPrinted env page) (declared : env.scope.class? id = .ok c.head) :
    c.Naming env id page fun m => camelCase m.name where
  declared := by
    intro m member
    obtain ⟨line, listed, printed⟩ := h.exists_line (entry_mem_entries member)
    obtain ⟨lead, tail, framed, -⟩ := Member.line_eq printed
    refine ⟨lead, tail, framed, ⟨line, listed⟩, fun line listed => ?_⟩
    obtain ⟨lead', tail', framed', shape⟩ := Member.line_eq (h.lines _ _ listed)
    cases framed.symm.trans framed'
    exact shape
  defined := by
    intro m d listed
    have spelled := h.signatures m d listed
    rw [Signature.text_eq] at spelled
    obtain ⟨f, framed, result⟩ := bind_eq_ok_iff.1 spelled
    exact ⟨f, framed, (Except.ok.inj result).symm⟩
  referred := by
    intro m _ r refers n leads position text printed
    exact n.plainText_reference leads (Member.name?_eq declared refers) printed

/-- They go by no other names. -/
theorem Naming.eq_camelCase (h : c.IsPrinted env page) (naming : c.Naming env id page names) {m : Member}
    (member : m ∈ c.members) : names m = camelCase m.name := by
  obtain ⟨lead, tail, framed, ⟨line, listed⟩, shape⟩ := naming.declared m member
  obtain ⟨lead', tail', framed', shape'⟩ := Member.line_eq (h.lines _ _ listed)
  cases framed.symm.trans framed'
  rw [shape line listed, Line.code.injEq, String.append_left_inj, String.append_right_inj] at shape'
  exact shape'.2

/-- The names of the members of a class are apart exactly when those in the program differ in more than
the case of the first character. -/
theorem IsPrinted.exists_naming_iff (h : c.IsPrinted env page) (declared : env.scope.class? id = .ok c.head)
    (distinct : (c.members.map Member.name).Nodup) :
    (∃ names, c.Naming env id page names ∧ (c.members.map names).Nodup) ↔
      (c.members.map Member.name).Pairwise fun a b => ¬ SameButCase a.toList b.toList :=
  exists_distinct_iff (h.naming declared) (fun _ naming _ => naming.eq_camelCase h) distinct

end Class

/-! ### Members of an enumeration -/

/-- What stands behind the name of a member of an enumeration. -/
def EnumMember.valueText (env : Env) (m : EnumMember ExprId) : Rendered String :=
  match m.value with
  | none => .ok ""
  | some id => do return " = " ++ (← env.plain id)

theorem EnumMember.text_eq (env : Env) (m : EnumMember ExprId) :
    m.text env = (do return camelCase m.name ++ (← m.valueText env)) := by
  unfold text valueText
  cases m.value with
  | none => simp
  | some id => simp [String.append_assoc]

namespace Enum

/-- The members of the enumeration go by these names. -/
structure Naming (env : Env) (id : EnumId) (e : Enum ExprId) (lines : List Line)
    (names : EnumMember ExprId → String) : Prop where
  declared : ∃ value : EnumMember ExprId → String, (∀ m ∈ e.members, m.valueText env = .ok (value m)) ∧
    lines = [Line.blank, .flush ("enum class " ++ e.name), .flush "\x7b"] ++
      indented (commaLines (e.members.map fun m => names m ++ value m)) ++ [Line.flush "\x7d;"]
  referred : ∀ m ∈ e.members, ∀ n : Node (Unit → Expr),
    n.shape.reference? = some (.enumValue id m.name) → ∀ position text,
      (Expr.node n).text env.scope .plain position = .ok text →
        ∃ lead tail, n.shape.Surrounds env.scope lead tail ∧ text = lead ++ names m ++ tail

variable {env : Env} {id : EnumId} {e : Enum ExprId} {lines : List Line} {names : EnumMember ExprId → String}

theorem naming_of_printed (printed : e.declarationLines env = .ok lines) :
    e.Naming env id lines fun m => camelCase m.name where
  declared := by
    obtain ⟨texts, members, result⟩ := bind_eq_ok_iff.1 printed
    have valued (m : EnumMember ExprId) : ∃ value, m ∈ e.members → m.valueText env = .ok value := by
      by_cases member : m ∈ e.members
      · obtain ⟨text, spelled⟩ := exists_of_mapM members member
        rw [EnumMember.text_eq] at spelled
        obtain ⟨value, given, -⟩ := bind_eq_ok_iff.1 spelled
        exact ⟨value, fun _ => given⟩
      · exact ⟨"", fun listed => absurd listed member⟩
    choose value given using valued
    have spelled : texts = e.members.map fun m => camelCase m.name ++ value m := by
      refine eq_map_of_mapM members fun m member => ?_
      rw [EnumMember.text_eq, given m member]
      rfl
    rw [spelled] at result
    exact ⟨value, given, (Except.ok.inj result).symm⟩
  referred := by
    intro m _ n leads position text printed
    exact n.plainText_reference leads rfl printed

/-- They go by no other names. -/
theorem Naming.eq_camelCase (declared : env.scope.enumName id = .ok e.name)
    (naming : e.Naming env id lines names) {m : EnumMember ExprId} (member : m ∈ e.members) :
    names m = camelCase m.name := by
  have printed : (Expr.node ⟨.symbol (.enumValue id m.name), .void⟩).text env.scope .plain .statement =
      .ok (e.name ++ "::" ++ camelCase m.name) := by
    show (do return (← env.scope.enumName id) ++ "::" ++ camelCase m.name : Rendered String) = _
    rw [declared]
    rfl
  obtain ⟨lead, tail, around, same⟩ := naming.referred m member _ rfl _ _ printed
  cases around with
  | enumValue found =>
    cases declared.symm.trans found
    simpa using same.symm

/-- The names of the members of an enumeration are apart exactly when those in the program differ in more
than the case of the first character. -/
theorem exists_naming_iff (printed : e.declarationLines env = .ok lines)
    (declared : env.scope.enumName id = .ok e.name) (distinct : (e.members.map EnumMember.name).Nodup) :
    (∃ names, e.Naming env id lines names ∧ (e.members.map names).Nodup) ↔
      (e.members.map EnumMember.name).Pairwise fun a b => ¬ SameButCase a.toList b.toList :=
  exists_distinct_iff (naming_of_printed printed) (fun _ naming _ => naming.eq_camelCase declared) distinct

end Enum

namespace Program

theorem scope_class? (p : Program) {id : ClassId} {c : Class ExprId} (found : p.classes[id.index]? = some c) :
    p.scope.class? id = .ok c.head := by
  rw [Scope.class?, lookUp_eq_ok_iff]
  simp [scope, found]

theorem scope_enumName (p : Program) {id : EnumId} {e : Enum ExprId} (found : p.enums[id.index]? = some e) :
    p.scope.enumName id = .ok e.name := by
  rw [Scope.enumName, lookUp_eq_ok_iff]
  simp [scope, found]

end Program

/-- In the two files of a program, the fields, stored constants and methods of a class and the members of an
enumeration go by one name each where they are declared, defined and referred to, in whatever form. Where
the names in the program are distinct, these are distinct, too, exactly when no two names in the program
are the same but for the case of their first characters. -/
theorem members_named_apart_iff {p : Program} {o : Options} {files : Artifacts}
    (printed : p.print o = .ok files) :
    (∃ order pages enums, p.IsLaidOut o files order pages enums ∧
      (∀ (id : ClassId) (c : Class ExprId), p.classes[id.index]? = some c →
        (∃ names, c.Naming p.env id (pages id) names) ∧ ((c.members.map Class.Member.name).Nodup →
          ((∃ names, c.Naming p.env id (pages id) names ∧ (c.members.map names).Nodup) ↔
            (c.members.map Class.Member.name).Pairwise fun a b =>
              ¬ SameButCase a.toList b.toList))) ∧
      ∀ (id : EnumId) (e : Enum ExprId), p.enums[id.index]? = some e →
        (∃ names, e.Naming p.env id (enums id) names) ∧ ((e.members.map EnumMember.name).Nodup →
          ((∃ names, e.Naming p.env id (enums id) names ∧ (e.members.map names).Nodup) ↔
            (e.members.map EnumMember.name).Pairwise fun a b =>
              ¬ SameButCase a.toList b.toList))) ∧
    ∀ (n : Node (Unit → Expr)) (r : Reference), n.shape.reference? = some r → ∀ form position text,
      (Expr.node n).text p.scope form position = .ok text →
        ∃ before plain after, Conversion before after ∧
          (∀ position, (Expr.node n).text p.scope .plain position = .ok plain) ∧
          text = before ++ plain ++ after := by
  obtain ⟨order, pages, enums, laidOut⟩ := p.exists_layout printed
  refine ⟨⟨order, pages, enums, laidOut, fun id c found => ?_, fun id e found => ?_⟩, ?_⟩
  · have page := laidOut.printedClasses id c found
    have declared : p.env.scope.class? id = .ok c.head := p.scope_class? found
    exact ⟨⟨_, page.naming declared⟩, page.exists_naming_iff declared⟩
  · have defined := laidOut.printedEnums id e found
    have declared : p.env.scope.enumName id = .ok e.name := p.scope_enumName found
    exact ⟨⟨_, Enum.naming_of_printed defined⟩, Enum.exists_naming_iff defined declared⟩
  · exact fun n r refers form position text spelled => n.text_reference refers spelled

/-- A class whose stored constant, field and methods have names of their own, used by one another. -/
def gearbox : Program where
  classes := #[⟨"Gearbox", none, .normal, none,
    [⟨"Ratios", .everywhere, .arrayStorage (.integer ⟨.w8, false⟩) 2, ⟨1⟩⟩],
    [⟨"Gear", .ownClass, .enum ⟨0⟩, some ⟨2⟩⟩],
    [⟨⟨"GetGear", .everywhere, .normal, false, .enum ⟨0⟩, []⟩, some (.ret (some ⟨3⟩))⟩,
     ⟨⟨"Shift", .unit, .normal, true, .void, []⟩, some (.evaluate ⟨5⟩)⟩]⟩]
  enums := #[⟨"Mode", [⟨"Slow", none⟩, ⟨"Fast", some ⟨0⟩⟩]⟩]
  exprs := ⟨#[⟨.literal (.int 1), .integer ⟨.w8, false⟩⟩,
    ⟨.aggregate [⟨0⟩, ⟨0⟩], .arrayStorage (.integer ⟨.w8, false⟩) 2⟩,
    ⟨.symbol (.enumValue ⟨0⟩ "Slow"), .enum ⟨0⟩⟩, ⟨.symbol (.field ⟨0⟩ "Gear"), .enum ⟨0⟩⟩,
    ⟨.symbol .this, .classPtr .writable ⟨0⟩⟩, ⟨.call ⟨4⟩ (.user ⟨0⟩ 0) [], .enum ⟨0⟩⟩]⟩

theorem members_named_apart_iff_gearbox : ∃ files, gearbox.print {} = .ok files ∧
    ∃ order pages enums, gearbox.IsLaidOut {} files order pages enums ∧
      (∀ c ∈ gearbox.classes[0]?, ∃ names,
        c.Naming gearbox.env ⟨0⟩ (pages ⟨0⟩) names ∧ (c.members.map names).Nodup) ∧
      ∀ e ∈ gearbox.enums[0]?, ∃ names,
        e.Naming gearbox.env ⟨0⟩ (enums ⟨0⟩) names ∧ (e.members.map names).Nodup := by
  obtain ⟨files, printed⟩ := exists_of_isOk (r := gearbox.print {}) (by decide +kernel)
  obtain ⟨⟨order, pages, enums, laidOut, classes, values⟩, -⟩ := members_named_apart_iff printed
  refine ⟨files, printed, order, pages, enums, laidOut, fun c found => ?_, fun e found => ?_⟩
  · cases found
    have distinct := (nodup_map_camelCase_iff
      (show ["Ratios", "Gear", "GetGear", "Shift"].Nodup by decide)).1 (by decide +kernel)
    exact ((classes ⟨0⟩ _ rfl).2 (by decide)).2 distinct
  · cases found
    have distinct := (nodup_map_camelCase_iff (show ["Slow", "Fast"].Nodup by decide)).1
      (by decide +kernel)
    exact ((values ⟨0⟩ _ rfl).2 (by decide)).2 distinct

/-- A class with a public and a private field whose names differ in the case of the first character. -/
def counterClass : Class ExprId :=
  ⟨"Counter", none, .normal, some [.evaluate ⟨2⟩], [],
    [⟨"Count", .everywhere, .i32, none⟩, ⟨"count", .ownClass, .i32, none⟩], []⟩

def counter : Program where
  classes := #[counterClass]
  exprs := ⟨#[⟨.symbol (.field ⟨0⟩ "Count"), .i32⟩, ⟨.symbol (.field ⟨0⟩ "count"), .i32⟩,
    ⟨.binary .assign ⟨0⟩ ⟨1⟩, .i32⟩]⟩

/-- Both fields are declared by one name, and the assignment of one to the other does nothing. -/
theorem fields_share_name :
    counter.print {} = .ok
      { headerPath := "out.hpp"
        header := "#pragma once\n#include <array>\n#include <memory>\n#include <string>\n" ++
          "#include <string_view>\n\nclass Counter;\n\nclass Counter\n\x7b\npublic:\n" ++
          "\tCounter();\n\tint32_t count;\nprivate:\n\tint32_t count;\n\x7d;\n"
        sourcePath := "out.cpp"
        source := "#include <algorithm>\n#include <cmath>\n#include \"out.hpp\"\n" ++
          "using namespace std::string_view_literals;\n\n" ++
          "Counter::Counter()\n\x7b\n\tthis->count = this->count;\n\x7d\n" } ∧
    (counterClass.members.map Class.Member.name).Nodup ∧
    ∀ page, counterClass.IsPrinted counter.env page →
      ¬ ∃ names, counterClass.Naming counter.env ⟨0⟩ page names ∧ (counterClass.members.map names).Nodup := by
  refine ⟨eq_ok_of_toOption (by decide +kernel), by decide, fun page isPage named => ?_⟩
  have declared : counter.env.scope.class? ⟨0⟩ = .ok counterClass.head :=
    counter.scope_class? rfl
  have apart : ["Count", "count"].Pairwise fun a b => ¬ SameButCase a.toList b.toList :=
    (isPage.exists_naming_iff declared (by decide)).1 named
  have alike : SameButCase "Count".toList "count".toList := .first (by decide +kernel)
  exact (List.pairwise_cons.1 apart).1 "count" (List.mem_singleton_self _) alike

end CppPrinter
