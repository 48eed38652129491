import CallTime.Proofs.Translation

/-!
Which names a function body binds.

A name belongs to the body if some place in its own scope binds it. An assignment expression in a
comprehension binds in the scope around, and so does one in the default value of a lambda or in the head
of a nested definition; a hint for a name in parentheses binds nothing. Main statement: the names
collected from a body are those of its scope, but for names bound only in such places and names that
have only such hints.
-/

namespace CallTime.Source

namespace Expr

def isLambda : Expr → Bool
  | .lambda _ _ _ => true
  | _ => false

def isComprehension : Expr → Bool
  | .listOf _ _ _ | .setOf _ _ _ | .generator _ _ _ | .dictOf _ _ _ _ => true
  | _ => false

def ownParts : Expr → List Expr
  | .lambda _ parameters _ => parameters.parts
  | e => e.children

variable (x : String)

/-- An assignment expression that is in no body of a lambda assigns to the name. -/
inductive Assigns : Expr → Prop
  | here {line line' : Nat} {use : NameUse} {value : Expr} :
    Assigns (.named line (.name line' x use) value)
  | part {e c : Expr} (hc : c ∈ e.ownParts) (h : Assigns c) : Assigns e

inductive Binds : Expr → Prop
  | name {line : Nat} {use : NameUse} (h : use ≠ .load) : Binds (.name line x use)
  | part {e c : Expr} (he : e.isComprehension = false) (hc : c ∈ e.ownParts) (h : Binds c) : Binds e
  /-- A comprehension has a scope of its own, but for assignment expressions. -/
  | comprehension {e c : Expr} (he : e.isComprehension = true) (hc : c ∈ e.children)
    (h : c.Assigns x) : Binds e

/-- The expression binds the name in a default value of a lambda or in a comprehension. -/
inductive Hides : Expr → Prop
  | default {line : Nat} {ps : Parameters Expr} {body c : Expr} (hc : c ∈ ps.parts) (h : c.Binds x) :
    Hides (.lambda line ps body)
  | comprehension {e c : Expr} (he : e.isComprehension = true) (hc : c ∈ e.children)
    (h : c.Assigns x) : Hides e
  | part {e c : Expr} (hl : e.isLambda = false) (he : e.isComprehension = false) (hc : c ∈ e.children)
    (h : Hides c) : Hides e

variable {x}

theorem ownParts_eq {e : Expr} (h : e.isLambda = false) : e.ownParts = e.children := by
  cases e with
  | lambda => cases h
  | _ => rfl

theorem mem_boundNames_iff {e : Expr} : x ∈ e.boundNames ↔
    (∃ line use, e = .name line x use ∧ use ≠ .load) ∨
      e.isLambda = false ∧ e.isComprehension = false ∧ ∃ c ∈ e.children, x ∈ c.boundNames := by
  rw [boundNames.eq_def]
  cases e with
  | name line id use => cases use <;> simp [isLambda, isComprehension, children, eq_comm]
  | lambda | listOf | setOf | generator | dictOf => simp [isLambda, isComprehension]
  | _ => simp [isLambda, isComprehension]

theorem binds_of_mem_boundNames (e : Expr) (h : x ∈ e.boundNames) : e.Binds x := by
  obtain ⟨line, use, rfl, hu⟩ | ⟨hl, hc, c, hmem, hx⟩ := mem_boundNames_iff.mp h
  · exact .name hu
  · exact .part hc (ownParts_eq hl ▸ hmem) (binds_of_mem_boundNames c hx)
termination_by sizeOf e
decreasing_by exact sizeOf_child e c hmem

theorem Hides.binds {e : Expr} (h : e.Hides x) : e.Binds x := by
  induction h with
  | default hc h => exact .part rfl hc h
  | comprehension he hc h => exact .comprehension he hc h
  | part hl he hc _ ih => exact .part he (ownParts_eq hl ▸ hc) ih

theorem Binds.mem_or_hides {e : Expr} (h : e.Binds x) : x ∈ e.boundNames ∨ e.Hides x := by
  induction h with
  | name h => exact .inl (mem_boundNames_iff.mpr (.inl ⟨_, _, rfl, h⟩))
  | comprehension he hc h => exact .inr (.comprehension he hc h)
  | @part e c he hc h ih =>
    cases hl : e.isLambda with
    | true =>
      cases e with
      | lambda line ps body => exact .inr (.default hc h)
      | _ => cases hl
    | false =>
      rw [ownParts_eq hl] at hc
      exact ih.imp (fun hx => mem_boundNames_iff.mpr (.inr ⟨hl, he, c, hc, hx⟩)) (.part hl he hc)

/-- What is bound and not collected is hidden. -/
theorem binds_iff {e : Expr} : e.Binds x ↔ x ∈ e.boundNames ∨ e.Hides x :=
  ⟨Binds.mem_or_hides, fun h => h.elim (binds_of_mem_boundNames e) Hides.binds⟩

end Expr

/-- The import binds the name: what it is called, up to the first dot. -/
def Alias.Binds (x : String) (a : Alias) : Prop :=
  ∃ rest, (a.newName.getD a.name).toList = x.toList ++ rest ∧ '.' ∉ x.toList ∧
    (rest = [] ∨ rest.head? = some '.')

theorem Alias.bound_eq_iff {a : Alias} {x : String} : a.bound = x ↔ a.Binds x := by
  constructor
  · rintro rfl
    refine ⟨(a.newName.getD a.name).toList.dropWhile (· ≠ '.'), ?_, ?_, ?_⟩
    · rw [bound, String.toList_ofList, List.takeWhile_append_dropWhile]
    · rw [bound, String.toList_ofList]
      intro h
      simpa using List.mem_takeWhile_imp h
    · cases h : (a.newName.getD a.name).toList.dropWhile (· ≠ '.') with
      | nil => exact .inl rfl
      | cons c cs =>
        have hhead := List.head?_dropWhile_not (· ≠ '.') (a.newName.getD a.name).toList
        rw [h] at hhead
        exact .inr (by simpa using hhead)
  · rintro ⟨rest, hname, hdot, hrest⟩
    have hall : ∀ c ∈ x.toList, decide (c ≠ '.') = true := fun c hc =>
      decide_eq_true fun h => hdot (h ▸ hc)
    have hnil : rest.takeWhile (· ≠ '.') = [] := by
      obtain rfl | hrest := hrest
      · rfl
      · cases rest with
        | nil => rfl
        | cons c cs =>
          cases hrest
          rfl
    rw [bound, hname, List.takeWhile_append_of_pos hall, hnil, List.append_nil, String.ofList_toList]

namespace Pattern

def name? : Pattern → Option String
  | .star name | .capture _ name | .mapping _ _ name => name
  | _ => none

def inner : Pattern → List Pattern
  | .sequence items | .alternatives items => items
  | .mapping _ values _ => values
  | .record _ positional _ keyword => positional ++ keyword
  | .capture pattern _ => pattern.toList
  | .value _ | .singleton _ | .star _ => []

inductive Captures (x : String) : Pattern → Prop
  | here {p : Pattern} (h : p.name? = some x) : Captures x p
  | inner {p q : Pattern} (hq : q ∈ p.inner) (h : Captures x q) : Captures x p

variable {x : String}

theorem captures_iff {p : Pattern} :
    p.Captures x ↔ p.name? = some x ∨ ∃ q ∈ p.inner, q.Captures x := by
  constructor
  · rintro (h | ⟨hq, h⟩)
    · exact .inl h
    · exact .inr ⟨_, hq, h⟩
  · rintro (h | ⟨q, hq, h⟩)
    · exact .here h
    · exact .inner hq h

mutual

theorem mem_boundNames_iff (p : Pattern) :
    x ∈ p.boundNames ↔ p.Captures x ∨ ∃ e ∈ p.expressions, x ∈ e.boundNames := by
  rw [captures_iff]
  cases p with
  | value v => simp [boundNames, expressions, name?, inner]
  | singleton _ => simp [boundNames, expressions, name?, inner]
  | star name => cases name <;> simp [boundNames, expressions, name?, inner, eq_comm]
  | sequence items | alternatives items =>
    simp [boundNames, expressions, name?, inner, mem_boundNamesList_iff items]
  | mapping keys values rest =>
    simp only [boundNames, expressions, name?, inner, List.mem_append, mem_boundNamesList_iff values,
      List.mem_flatMap, Option.mem_toList]
    grind
  | record c positional names keyword =>
    simp only [boundNames, expressions, name?, inner, List.mem_append, List.mem_cons,
      mem_boundNamesList_iff positional, mem_boundNamesList_iff keyword]
    grind
  | capture pattern name =>
    simp only [boundNames, expressions, name?, inner, List.mem_append, mem_boundNamesOption_iff pattern,
      Option.mem_toList]
    grind
termination_by structural p

theorem mem_boundNamesList_iff (ps : List Pattern) : x ∈ boundNamesList ps ↔
    (∃ p ∈ ps, p.Captures x) ∨ ∃ e ∈ expressionsList ps, x ∈ e.boundNames := by
  cases ps with
  | nil => simp [boundNamesList, expressionsList]
  | cons p ps =>
    simp only [boundNamesList, expressionsList, List.mem_append, mem_boundNames_iff p,
      mem_boundNamesList_iff ps, List.mem_cons]
    grind
termination_by structural ps

theorem mem_boundNamesOption_iff (p : Option Pattern) : x ∈ boundNamesOption p ↔
    (∃ q, p = some q ∧ q.Captures x) ∨ ∃ e ∈ expressionsOption p, x ∈ e.boundNames := by
  cases p with
  | none => simp [boundNamesOption, expressionsOption]
  | some p => simp [boundNamesOption, expressionsOption, mem_boundNames_iff p]
termination_by structural p

end

end Pattern

namespace Handler

def type : Handler → Option Expr
  | .mk type _ _ => type

def name : Handler → Option String
  | .mk _ name _ => name

def body : Handler → List Stmt
  | .mk _ _ body => body

end Handler

namespace MatchCase

def pattern : MatchCase → Pattern
  | .mk pattern _ _ => pattern

def guard : MatchCase → Option Expr
  | .mk _ guard _ => guard

def body : MatchCase → List Stmt
  | .mk _ _ body => body

end MatchCase

namespace Stmt

def inner : Stmt → List Stmt
  | .forLoop _ _ _ body orelse | .whileLoop _ _ body orelse | .ifElse _ _ body orelse => body ++ orelse
  | .withBlock _ _ body => body
  | .matchCases _ _ cases => cases.flatMap (·.body)
  | .tryBlock _ body handlers orelse final | .tryGroup _ body handlers orelse final =>
    body ++ handlers.flatMap (·.body) ++ orelse ++ final
  | _ => []

def head : Stmt → List Expr
  | .functionDef _ _ parameters _ header => parameters.parts ++ header
  | .classDef _ _ _ header => header
  | _ => []

/-- The name in parentheses that a statement gives only a hint for. -/
def bare? : Stmt → Option Expr
  | .annotate _ (.name line x .store) _ none true => some (.name line x .store)
  | _ => none

def parts (s : Stmt) : List Expr :=
  match s with
  | .ret _ value => value.toList
  | .delete _ targets => targets
  | .assign _ targets value => targets ++ [value]
  | .augment _ target _ value => [target, value]
  | .annotate _ target typeHint value _ =>
    if s.bare?.isSome then [typeHint] else target :: typeHint :: value.toList
  | .forLoop _ target source _ _ => [target, source]
  | .whileLoop _ test _ _ | .ifElse _ test _ _ => [test]
  | .withBlock _ items _ => items.flatMap WithItem.parts
  | .matchCases _ subject cases =>
    subject :: cases.flatMap fun c => c.pattern.expressions ++ c.guard.toList
  | .raise _ exception cause => exception.toList ++ cause.toList
  | .tryBlock _ _ handlers _ _ | .tryGroup _ _ handlers _ _ => handlers.flatMap (·.type.toList)
  | .assert _ test message => test :: message.toList
  | .expr _ value => [value]
  | _ => []

variable (x : String)

inductive Introduces : Stmt → Prop
  | function {line : Nat} {ps : Parameters Expr} {body : List Stmt} {header : List Expr} :
    Introduces (.functionDef line x ps body header)
  | class_ {line : Nat} {body : List Stmt} {header : List Expr} : Introduces (.classDef line x body header)
  | imported {line : Nat} {names : List Alias} {a : Alias} (ha : a ∈ names) (h : a.Binds x) :
    Introduces (.importNames line names)
  | handler {line : Nat} {body orelse final : List Stmt} {handlers : List Handler} {h : Handler}
    (hh : h ∈ handlers) (hn : h.name = some x) : Introduces (.tryBlock line body handlers orelse final)
  | groupHandler {line : Nat} {body orelse final : List Stmt} {handlers : List Handler} {h : Handler}
    (hh : h ∈ handlers) (hn : h.name = some x) : Introduces (.tryGroup line body handlers orelse final)
  | captured {line : Nat} {subject : Expr} {cases : List MatchCase} {c : MatchCase} (hc : c ∈ cases)
    (h : c.pattern.Captures x) : Introduces (.matchCases line subject cases)

/-- The statement binds the name in the scope it stands in, without the statements inside. -/
inductive BindsHere (s : Stmt) : Prop
  | introduces (h : s.Introduces x)
  | head {e : Expr} (he : e ∈ s.head) (h : e.Binds x)
  | part {e : Expr} (he : e ∈ s.parts) (h : e.Binds x)

inductive HidesHere (s : Stmt) : Prop
  | head {e : Expr} (he : e ∈ s.head) (h : e.Binds x)
  | part {e : Expr} (he : e ∈ s.parts) (h : e.Hides x)

/-- It only has a hint for the name, which is in parentheses. -/
def Bare (s : Stmt) : Prop := ∃ line, s.bare? = some (.name line x .store)

variable {x}

/-- The statement, or one inside of the same scope, has the property. -/
inductive Has (P : Stmt → Prop) : Stmt → Prop
  | here {s : Stmt} (h : P s) : Has P s
  | inner {s t : Stmt} (ht : t ∈ s.inner) (h : Has P t) : Has P s

theorem has_iff {P : Stmt → Prop} {s : Stmt} : s.Has P ↔ P s ∨ ∃ t ∈ s.inner, t.Has P := by
  constructor
  · rintro (h | ⟨ht, h⟩)
    · exact .inl h
    · exact .inr ⟨_, ht, h⟩
  · rintro (h | ⟨t, ht, h⟩)
    · exact .here h
    · exact .inner ht h

theorem Has.mono {P Q : Stmt → Prop} (hPQ : ∀ s, P s → Q s) {s : Stmt} (h : s.Has P) : s.Has Q := by
  induction h with
  | here h => exact .here (hPQ _ h)
  | inner ht _ ih => exact .inner ht ih

theorem has_or_iff {P Q : Stmt → Prop} {s : Stmt} :
    s.Has (fun s => P s ∨ Q s) ↔ s.Has P ∨ s.Has Q := by
  constructor
  · intro h
    induction h with
    | here h => exact h.imp .here .here
    | inner ht _ ih => exact ih.imp (.inner ht) (.inner ht)
  · rintro (h | h)
    · exact h.mono fun _ => .inl
    · exact h.mono fun _ => .inr

def CollectsHere (x : String) (s : Stmt) : Prop :=
  s.Introduces x ∨ ∃ e ∈ s.bare?.toList ++ s.parts, x ∈ e.boundNames

theorem eq_of_bare? {s : Stmt} {e : Expr} (h : s.bare? = some e) : ∃ line y, e = .name line y .store := by
  unfold bare? at h
  split at h
  · exact ⟨_, _, (Option.some.inj h).symm⟩
  · cases h

theorem bare?_annotate {line : Nat} {target typeHint e : Expr} {value : Option Expr} {inParentheses : Bool}
    (h : (annotate line target typeHint value inParentheses).bare? = some e) : target = e ∧ value = none := by
  unfold bare? at h
  split at h
  · next heq =>
    cases heq
    exact ⟨Option.some.inj h, rfl⟩
  · cases h

/-- Each place that binds the name is collected or hidden, and only hints in parentheses are collected
besides. -/
theorem collects_or_hides_iff {s : Stmt} :
    s.CollectsHere x ∨ s.HidesHere x ↔ s.BindsHere x ∨ s.Bare x := by
  constructor
  · rintro ((h | ⟨e, he, hx⟩) | (⟨he, h⟩ | ⟨he, h⟩))
    · exact .inl (.introduces h)
    · obtain he | he := List.mem_append.mp he
      · obtain ⟨line, y, rfl⟩ := eq_of_bare? (Option.mem_toList.mp he)
        obtain ⟨line', use, hname, -⟩ | ⟨-, -, c, hc, -⟩ := Expr.mem_boundNames_iff.mp hx
        · cases hname
          exact .inr ⟨line, Option.mem_toList.mp he⟩
        · cases hc
      · exact .inl (.part he (Expr.binds_iff.mpr (.inl hx)))
    · exact .inl (.head he h)
    · exact .inl (.part he h.binds)
  · rintro ((h | ⟨he, h⟩ | ⟨he, h⟩) | ⟨line, h⟩)
    · exact .inl (.inl h)
    · exact .inr (.head he h)
    · obtain hx | hx := Expr.binds_iff.mp h
      · exact .inl (.inr ⟨_, List.mem_append_right _ he, hx⟩)
      · exact .inr (.part he hx)
    · refine .inl (.inr ⟨.name line x .store, List.mem_append_left _ ?_, ?_⟩)
      · rw [h]
        exact List.mem_singleton_self _
      · exact Expr.mem_boundNames_iff.mpr (.inl ⟨line, .store, rfl, by decide⟩)

theorem introduces_iff {s : Stmt} : s.Introduces x ↔ match s with
    | .functionDef _ name _ _ _ | .classDef _ name _ _ => name = x
    | .importNames _ names => ∃ a ∈ names, a.Binds x
    | .tryBlock _ _ handlers _ _ | .tryGroup _ _ handlers _ _ => ∃ h ∈ handlers, h.name = some x
    | .matchCases _ _ cases => ∃ c ∈ cases, c.pattern.Captures x
    | _ => False := by
  constructor
  · rintro (_ | _ | ⟨ha, h⟩ | ⟨hh, hn⟩ | ⟨hh, hn⟩ | ⟨hc, h⟩)
    · rfl
    · rfl
    · exact ⟨_, ha, h⟩
    · exact ⟨_, hh, hn⟩
    · exact ⟨_, hh, hn⟩
    · exact ⟨_, hc, h⟩
  · intro h
    cases s with
    | functionDef line name ps body header =>
      cases h
      exact .function
    | classDef line name body header =>
      cases h
      exact .class_
    | importNames line names =>
      obtain ⟨a, ha, h⟩ := h
      exact .imported ha h
    | tryBlock line body handlers orelse final =>
      obtain ⟨h, hh, hn⟩ := h
      exact .handler hh hn
    | tryGroup line body handlers orelse final =>
      obtain ⟨h, hh, hn⟩ := h
      exact .groupHandler hh hn
    | matchCases line subject cases =>
      obtain ⟨c, hc, h⟩ := h
      exact .captured hc h
    | _ => exact h.elim

theorem mem_boundNamesList_iff {ss : List Stmt} : x ∈ boundNamesList ss ↔ ∃ s ∈ ss, x ∈ s.boundNames := by
  induction ss with
  | nil => simp [boundNamesList]
  | cons s ss ih => simp [boundNamesList, ih]

theorem mem_boundNamesHandler_iff {h : Handler} : x ∈ boundNamesHandler h ↔
    h.name = some x ∨ (∃ e ∈ h.type.toList, x ∈ e.boundNames) ∨ ∃ t ∈ h.body, x ∈ t.boundNames := by
  obtain ⟨type, name, body⟩ := h
  simp only [boundNamesHandler, mem_boundNamesList_iff, Handler.type, Handler.name, Handler.body,
    List.mem_append, List.mem_flatMap, Option.mem_toList, or_assoc]
  exact or_left_comm

theorem mem_boundNamesHandlers_iff {hs : List Handler} :
    x ∈ boundNamesHandlers hs ↔ ∃ h ∈ hs, x ∈ boundNamesHandler h := by
  induction hs with
  | nil => simp [boundNamesHandlers]
  | cons h hs ih => simp [boundNamesHandlers, ih]

theorem mem_boundNamesCase_iff {c : MatchCase} : x ∈ boundNamesCase c ↔
    c.pattern.Captures x ∨ (∃ e ∈ c.pattern.expressions ++ c.guard.toList, x ∈ e.boundNames) ∨
      ∃ t ∈ c.body, x ∈ t.boundNames := by
  obtain ⟨pattern, guard, body⟩ := c
  simp only [boundNamesCase, mem_boundNamesList_iff, MatchCase.pattern, MatchCase.guard, MatchCase.body,
    List.mem_append, Pattern.mem_boundNames_iff, List.mem_flatMap, or_and_right, exists_or, or_assoc]

theorem mem_boundNamesCases_iff {cs : List MatchCase} :
    x ∈ boundNamesCases cs ↔ ∃ c ∈ cs, x ∈ boundNamesCase c := by
  induction cs with
  | nil => simp [boundNamesCases]
  | cons c cs ih => simp [boundNamesCases, ih]

theorem mem_boundNames_iff {s : Stmt} :
    x ∈ s.boundNames ↔ s.CollectsHere x ∨ ∃ t ∈ s.inner, x ∈ t.boundNames := by
  rw [CollectsHere, introduces_iff]
  cases s with
  | matchCases line subject cases =>
    simp only [boundNames, parts, bare?, inner, mem_boundNamesCases_iff, mem_boundNamesCase_iff,
      List.mem_append, List.mem_cons, List.mem_flatMap, Option.toList_none, List.nil_append]
    grind
  | tryBlock line body handlers orelse final | tryGroup line body handlers orelse final =>
    simp only [boundNames, parts, bare?, inner, mem_boundNamesList_iff, mem_boundNamesHandlers_iff,
      mem_boundNamesHandler_iff, List.mem_append, List.mem_flatMap, Option.toList_none, List.nil_append]
    grind
  | annotate line target typeHint value inParentheses =>
    cases hb : (annotate line target typeHint value inParentheses).bare? with
    | none => simp [boundNames, parts, hb, inner]
    | some e =>
      obtain ⟨rfl, rfl⟩ := bare?_annotate hb
      simp [boundNames, parts, hb, inner]
  | importNames line names => simp [boundNames, parts, bare?, inner, Alias.bound_eq_iff]
  | functionDef | classDef => simp [boundNames, parts, bare?, inner, eq_comm]
  | forLoop | whileLoop | ifElse =>
    simp [boundNames, parts, bare?, inner, mem_boundNamesList_iff, or_assoc, or_and_right, exists_or]
  | withBlock =>
    simp [boundNames, parts, bare?, inner, mem_boundNamesList_iff]
  | _ => simp [boundNames, parts, bare?, inner, or_and_right, exists_or]

theorem sizeOf_handlers {hs : List Handler} {t : Stmt} (h : t ∈ hs.flatMap (·.body)) :
    sizeOf t < sizeOf hs := by
  obtain ⟨⟨type, name, body⟩, hh, ht⟩ := List.mem_flatMap.mp h
  have hhs := List.sizeOf_lt_of_mem hh
  have hbody := List.sizeOf_lt_of_mem ht
  simp only [Handler.body, Handler.mk.sizeOf_spec] at hhs hbody
  omega

theorem sizeOf_cases {cs : List MatchCase} {t : Stmt} (h : t ∈ cs.flatMap (·.body)) :
    sizeOf t < sizeOf cs := by
  obtain ⟨⟨pattern, guard, body⟩, hc, ht⟩ := List.mem_flatMap.mp h
  have hcs := List.sizeOf_lt_of_mem hc
  have hbody := List.sizeOf_lt_of_mem ht
  simp only [MatchCase.body, MatchCase.mk.sizeOf_spec] at hcs hbody
  omega

theorem sizeOf_inner {s t : Stmt} (h : t ∈ s.inner) : sizeOf t < sizeOf s := by
  have hlist {ss : List Stmt} : t ∈ ss → sizeOf t < sizeOf ss := List.sizeOf_lt_of_mem
  cases s with
  | forLoop | whileLoop | ifElse =>
    simp only [inner, List.mem_append] at h
    simp only [forLoop.sizeOf_spec, whileLoop.sizeOf_spec, ifElse.sizeOf_spec]
    obtain h | h := h <;> have := hlist h <;> omega
  | withBlock line items body =>
    have hbody : sizeOf t < sizeOf body := hlist h
    simp only [withBlock.sizeOf_spec]
    omega
  | matchCases line subject cases =>
    have hcases : sizeOf t < sizeOf cases := sizeOf_cases h
    simp only [matchCases.sizeOf_spec]
    omega
  | tryBlock | tryGroup =>
    simp only [inner, List.mem_append] at h
    simp only [tryBlock.sizeOf_spec, tryGroup.sizeOf_spec]
    obtain ((h | h) | h) | h := h
    · have := hlist h
      omega
    · have := sizeOf_handlers h
      omega
    · have := hlist h
      omega
    · have := hlist h
      omega
  | _ => cases h

theorem mem_boundNames_iff_has (s : Stmt) : x ∈ s.boundNames ↔ s.Has (CollectsHere x) := by
  have ih (t : Stmt) (ht : t ∈ s.inner) : x ∈ t.boundNames ↔ t.Has (CollectsHere x) :=
    mem_boundNames_iff_has t
  rw [mem_boundNames_iff, has_iff]
  exact or_congr_right (exists_congr fun t => and_congr_right (ih t))
termination_by sizeOf s
decreasing_by exact sizeOf_inner ht

end Stmt

section Bodies

variable (body : List Stmt) (x : String)

/-- A body without `global` and `nonlocal` declarations binds the name in its own scope. -/
def Scoped : Prop := ∃ s ∈ body, s.Has (Stmt.BindsHere x)

/-- The body binds the name in a comprehension, in a default value of a lambda or in the head of a nested
definition. -/
def Hidden : Prop := ∃ s ∈ body, s.Has (Stmt.HidesHere x)

def Hinted : Prop := ∃ s ∈ body, s.Has (Stmt.Bare x)

theorem collected_or_hidden_iff :
    x ∈ body.flatMap Stmt.boundNames ∨ Hidden body x ↔ Scoped body x ∨ Hinted body x := by
  have hstatement (s : Stmt) : x ∈ s.boundNames ∨ s.Has (Stmt.HidesHere x) ↔
      s.Has (Stmt.BindsHere x) ∨ s.Has (Stmt.Bare x) := by
    rw [Stmt.mem_boundNames_iff_has, ← Stmt.has_or_iff, ← Stmt.has_or_iff]
    exact ⟨.mono fun _ => Stmt.collects_or_hides_iff.mp, .mono fun _ => Stmt.collects_or_hides_iff.mpr⟩
  simp only [List.mem_flatMap, Hidden, Scoped, Hinted, ← exists_or, ← and_or_left, hstatement]

theorem scoped_of_hidden (h : Hidden body x) : Scoped body x := by
  obtain ⟨s, hs, h⟩ := h
  refine ⟨s, hs, h.mono fun s h => ?_⟩
  cases h with
  | head he h => exact .head he h
  | part he h => exact .part he h.binds

/-- A name is collected just if the body binds it, unless it is bound only in hidden places or has only
hints in parentheses. -/
theorem collected_iff_scoped :
    (x ∈ body.flatMap Stmt.boundNames ↔ Scoped body x) ↔
      (Hidden body x → x ∈ body.flatMap Stmt.boundNames) ∧ (Hinted body x → Scoped body x) := by
  have hiff := collected_or_hidden_iff body x
  constructor
  · intro h
    refine ⟨fun hhidden => h.mpr (scoped_of_hidden body x hhidden), fun hhinted => ?_⟩
    obtain hc | hhidden := hiff.mpr (.inr hhinted)
    · exact h.mp hc
    · exact scoped_of_hidden body x hhidden
  · rintro ⟨hhidden, hhinted⟩
    refine ⟨fun hc => ?_, fun hs => ?_⟩
    · exact (hiff.mp (.inl hc)).elim id hhinted
    · exact (hiff.mpr (.inl hs)).elim id hhidden

end Bodies

/-- `[level := y for y in ys]` -/
def sweep : List Stmt :=
  [.expr 2 (.listOf 2 (.named 2 (.name 2 "level" .store) (.name 2 "y" .load))
    [⟨.name 2 "y" .store, .name 2 "ys" .load, [], false⟩])]

/-- An assignment expression in a comprehension is missed. -/
theorem sweep_missed : Scoped sweep "level" ∧ "level" ∉ sweep.flatMap Stmt.boundNames := by
  constructor
  · refine ⟨_, List.mem_cons_self, .here (.part List.mem_cons_self ?_)⟩
    exact .comprehension rfl List.mem_cons_self .here
  · simp [sweep, Stmt.boundNames, Expr.boundNames]

end CallTime.Source
