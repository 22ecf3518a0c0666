import Mathlib.Data.Int.Notation
import Mathlib.Data.List.Basic

/-!
# Compact JSON text

The text of a JSON document of strings, integers, arrays and objects, without white space, for a
given way to quote a string. A quoted string, a number, an array and an object each tell where they
end, so the text determines the document.

## Main definitions

* `JsonTree`: a document; `JsonTree.render`: its text.
* `JsonTree.Within`: the strings and keys of a document have a property.
* `sortMembers`, `JsonTree.sortKeys`: members in the order of their keys.
* `Quotes`: a quoting that tells where a string ends, for the strings with a property.

## Main results

* `JsonTree.render_injective`: the text determines the document.
* `quotes_quoted`: a quoting that escapes the quotation mark and the reverse solidus.
-/

namespace MagpieTts.Library

/-- A JSON document, the members of each object in an order. -/
inductive JsonTree where
  | string (text : String)
  | integer (value : ℤ)
  | array (elements : List JsonTree)
  | object (members : List (String × JsonTree))

namespace JsonTree

variable (quote : String → List Char)

mutual

/-- The text of a document. -/
def render : JsonTree → List Char
  | .string text => quote text
  | .integer value => value.repr.toList
  | .array [] => ['[', ']']
  | .array (element :: elements) => '[' :: (element.render ++ renderElements elements)
  | .object [] => ['{', '}']
  | .object ((key, value) :: members) =>
      '{' :: (quote key ++ ':' :: (value.render ++ renderMembers members))

/-- The text behind the first element of an array. -/
def renderElements : List JsonTree → List Char
  | [] => [']']
  | element :: elements => ',' :: (element.render ++ renderElements elements)

/-- The text behind the first member of an object. -/
def renderMembers : List (String × JsonTree) → List Char
  | [] => ['}']
  | (key, value) :: members =>
      ',' :: (quote key ++ ':' :: (value.render ++ renderMembers members))

end

variable (P : String → Prop)

mutual

/-- The strings and keys of a document have a property. -/
def Within : JsonTree → Prop
  | .string text => P text
  | .integer _ => True
  | .array elements => ElementsWithin elements
  | .object members => MembersWithin members

/-- The same for the elements of an array. -/
def ElementsWithin : List JsonTree → Prop
  | [] => True
  | element :: elements => element.Within ∧ ElementsWithin elements

/-- The same for the members of an object. -/
def MembersWithin : List (String × JsonTree) → Prop
  | [] => True
  | (key, value) :: members => P key ∧ value.Within ∧ MembersWithin members

end

end JsonTree

/-! ### The text determines the document -/

/-- A quoting that starts with a quotation mark and tells where the string ends. -/
structure Quotes (quote : String → List Char) (P : String → Prop) : Prop where
  start : ∀ text, ∃ rest, quote text = '\x22' :: rest
  inj : ∀ {text text' : String} {r r' : List Char}, P text → P text' →
    quote text ++ r = quote text' ++ r' → text = text' ∧ r = r'

/-- The characters of a number. -/
def IsNumberChar (c : Char) : Prop := c.isDigit = true ∨ c = '-'

instance (c : Char) : Decidable (IsNumberChar c) := inferInstanceAs (Decidable (_ ∨ _))

/-- What follows is the end or no part of a number. -/
def Delimited (r : List Char) : Prop := ∀ c t, r = c :: t → ¬ IsNumberChar c

theorem delimited_cons {c : Char} {t : List Char} (h : ¬ IsNumberChar c) : Delimited (c :: t) := by
  intro c' t' heq
  rw [← (List.cons.inj heq).1]
  exact h

theorem isNumberChar_of_mem_repr {value : ℤ} {c : Char} (h : c ∈ value.repr.toList) :
    IsNumberChar c := by
  cases value with
  | ofNat n =>
    rw [Int.repr, Nat.toList_repr] at h
    exact Or.inl (Nat.isDigit_of_mem_toDigits (by decide) (by decide) h)
  | negSucc n =>
    rw [Int.repr, String.toList_append, List.mem_append, Nat.toList_repr] at h
    rcases h with h | h
    · exact Or.inr (List.mem_singleton.mp h)
    · exact Or.inl (Nat.isDigit_of_mem_toDigits (by decide) (by decide) h)

theorem repr_ne_nil (value : ℤ) : value.repr.toList ≠ [] := by
  cases value with
  | ofNat n =>
    rw [Int.repr, Nat.toList_repr]
    exact Nat.toDigits_ne_nil
  | negSucc n =>
    rw [Int.repr, String.toList_append]
    exact List.append_ne_nil_of_left_ne_nil (List.cons_ne_nil _ _) _

/-- Two numbers that are followed by no part of a number. -/
theorem number_append_inj {xs ys r r' : List Char} (hxs : ∀ c ∈ xs, IsNumberChar c)
    (hys : ∀ c ∈ ys, IsNumberChar c) (hr : Delimited r) (hr' : Delimited r')
    (h : xs ++ r = ys ++ r') : xs = ys ∧ r = r' := by
  induction xs generalizing ys with
  | nil =>
    cases ys with
    | nil => exact ⟨rfl, h⟩
    | cons y ys => exact absurd (hys y List.mem_cons_self) (hr y _ h)
  | cons x xs ih =>
    cases ys with
    | nil => exact absurd (hxs x List.mem_cons_self) (hr' x _ h.symm)
    | cons y ys =>
      obtain ⟨rfl, hrest⟩ := List.cons.inj h
      obtain ⟨rfl, hr⟩ := ih (fun c hc => hxs c (List.mem_cons_of_mem _ hc))
        (fun c hc => hys c (List.mem_cons_of_mem _ hc)) hrest
      exact ⟨rfl, hr⟩

theorem toDigits_injective {m n : ℕ} (h : Nat.toDigits 10 m = Nat.toDigits 10 n) : m = n := by
  rw [← Nat.ofDigitChars_ten_toDigits (n := m), h, Nat.ofDigitChars_ten_toDigits]

theorem repr_toList_injective {value value' : ℤ} (h : value.repr.toList = value'.repr.toList) :
    value = value' := by
  have hnegative (m n : ℕ) : (Int.ofNat m).repr.toList ≠ (Int.negSucc n).repr.toList := by
    intro heq
    rw [Int.repr, Int.repr, Nat.toList_repr, String.toList_append] at heq
    have hmem : '-' ∈ Nat.toDigits 10 m := heq ▸ List.mem_cons_self
    exact absurd (Nat.isDigit_of_mem_toDigits (by decide) (by decide) hmem) (by decide)
  cases value with
  | ofNat m =>
    cases value' with
    | ofNat n =>
      rw [Int.repr, Int.repr, Nat.toList_repr, Nat.toList_repr] at h
      rw [toDigits_injective h]
    | negSucc n => exact absurd h (hnegative m n)
  | negSucc m =>
    cases value' with
    | ofNat n => exact absurd h.symm (hnegative n m)
    | negSucc n =>
      rw [Int.repr, Int.repr, String.toList_append, String.toList_append,
        List.append_cancel_left_eq, Nat.toList_repr, Nat.toList_repr] at h
      rw [Nat.succ.inj (toDigits_injective h)]

namespace JsonTree

variable {quote : String → List Char} {P : String → Prop}

theorem delimited_renderElements (elements : List JsonTree) (r : List Char) :
    Delimited (renderElements quote elements ++ r) := by
  cases elements with
  | nil => exact delimited_cons (by decide)
  | cons element elements => exact delimited_cons (by decide)

theorem delimited_renderMembers (members : List (String × JsonTree)) (r : List Char) :
    Delimited (renderMembers quote members ++ r) := by
  cases members with
  | nil => exact delimited_cons (by decide)
  | cons member members => exact delimited_cons (by decide)

/-- The constructor of a document, as a number. -/
def kind : JsonTree → ℕ
  | .string _ => 0
  | .integer _ => 1
  | .array _ => 2
  | .object _ => 3

/-- The constructor of the document that starts with a character. -/
def kindOfChar (c : Char) : ℕ :=
  if c = '\x22' then 0
  else if c = '[' then 2
  else if c = '{' then 3
  else if IsNumberChar c then 1
  else 4

theorem kindOfChar_of_isNumberChar {c : Char} (h : IsNumberChar c) : kindOfChar c = 1 := by
  have hquote : c ≠ '\x22' := fun heq => absurd (heq ▸ h) (by decide)
  have hbracket : c ≠ '[' := fun heq => absurd (heq ▸ h) (by decide)
  have hbrace : c ≠ '{' := fun heq => absurd (heq ▸ h) (by decide)
  rw [kindOfChar, if_neg hquote, if_neg hbracket, if_neg hbrace, if_pos h]

theorem render_start (hquote : Quotes quote P) (tree : JsonTree) :
    ∃ c t, tree.render quote = c :: t ∧ kindOfChar c = tree.kind := by
  match tree with
  | .string text =>
    obtain ⟨rest, hrest⟩ := hquote.start text
    exact ⟨_, rest, hrest, rfl⟩
  | .integer value =>
    obtain ⟨c, t, hrepr⟩ := List.exists_cons_of_ne_nil (repr_ne_nil value)
    have hmem : c ∈ value.repr.toList := hrepr ▸ List.mem_cons_self
    exact ⟨c, t, hrepr, kindOfChar_of_isNumberChar (isNumberChar_of_mem_repr hmem)⟩
  | .array [] => exact ⟨_, _, rfl, rfl⟩
  | .array (_ :: _) => exact ⟨_, _, rfl, rfl⟩
  | .object [] => exact ⟨_, _, rfl, rfl⟩
  | .object (_ :: _) => exact ⟨_, _, rfl, rfl⟩

/-- The first character tells the constructor. -/
theorem kind_eq (hquote : Quotes quote P) {tree tree' : JsonTree} {r r' : List Char}
    (h : tree.render quote ++ r = tree'.render quote ++ r') : tree.kind = tree'.kind := by
  obtain ⟨c, t, hrender, hkind⟩ := render_start hquote tree
  obtain ⟨c', t', hrender', hkind'⟩ := render_start hquote tree'
  rw [hrender, hrender'] at h
  rw [← hkind, ← hkind', (List.cons.inj h).1]

/-- No document starts with a closing bracket. -/
theorem render_append_ne (hquote : Quotes quote P) (tree : JsonTree) {closing : Char}
    (hclosing : kindOfChar closing = 4) (t r : List Char) :
    tree.render quote ++ r ≠ closing :: t := by
  obtain ⟨c, t', hrender, hkind⟩ := render_start hquote tree
  intro heq
  rw [hrender] at heq
  rw [← (List.cons.inj heq).1, hkind] at hclosing
  cases tree <;> exact absurd hclosing (by simp [kind])

/-- A member is a quoted key, a colon and a value, and something behind it. -/
theorem member_append (key : String) (value : JsonTree) (rest r : List Char) :
    quote key ++ ':' :: (value.render quote ++ rest) ++ r =
      quote key ++ ':' :: (value.render quote ++ (rest ++ r)) := by
  simp only [List.append_assoc, List.cons_append]

mutual

/-- Behind a document the text goes on with the same characters, and the documents are the same. -/
theorem render_append_inj (hquote : Quotes quote P) {tree tree' : JsonTree} {r r' : List Char}
    (htree : tree.Within P) (htree' : tree'.Within P) (hr : Delimited r) (hr' : Delimited r')
    (h : tree.render quote ++ r = tree'.render quote ++ r') : tree = tree' ∧ r = r' := by
  have hkind := kind_eq hquote h
  match tree, tree' with
  | .string text, .string text' =>
    obtain ⟨rfl, hrest⟩ := hquote.inj htree htree' h
    exact ⟨rfl, hrest⟩
  | .integer value, .integer value' =>
    obtain ⟨hvalue, hrest⟩ := number_append_inj (fun _ => isNumberChar_of_mem_repr)
      (fun _ => isNumberChar_of_mem_repr) hr hr' h
    exact ⟨by rw [repr_toList_injective hvalue], hrest⟩
  | .array [], .array [] => exact ⟨rfl, by simpa [render] using h⟩
  | .array [], .array (element :: elements) =>
    simp only [render, List.cons_append, List.append_assoc] at h
    exact absurd (List.cons.inj h).2.symm (render_append_ne hquote element (by decide) _ _)
  | .array (element :: elements), .array [] =>
    simp only [render, List.cons_append, List.append_assoc] at h
    exact absurd (List.cons.inj h).2 (render_append_ne hquote element (by decide) _ _)
  | .array (element :: elements), .array (element' :: elements') =>
    rw [render, render, List.cons_append, List.cons_append, List.append_assoc,
      List.append_assoc] at h
    obtain ⟨rfl, hrest⟩ := render_append_inj hquote htree.1 htree'.1
      (delimited_renderElements _ _) (delimited_renderElements _ _) (List.cons.inj h).2
    obtain ⟨rfl, hend⟩ := renderElements_append_inj hquote htree.2 htree'.2 hrest
    exact ⟨rfl, hend⟩
  | .object [], .object [] => exact ⟨rfl, by simpa [render] using h⟩
  | .object [], .object ((key, value) :: members) =>
    simp only [render, List.cons_append, List.append_assoc] at h
    exact absurd (List.cons.inj h).2.symm
      (render_append_ne hquote (.string key) (by decide) _ _)
  | .object ((key, value) :: members), .object [] =>
    simp only [render, List.cons_append, List.append_assoc] at h
    exact absurd (List.cons.inj h).2 (render_append_ne hquote (.string key) (by decide) _ _)
  | .object ((key, value) :: members), .object ((key', value') :: members') =>
    rw [render, render, List.cons_append, List.cons_append, member_append, member_append] at h
    obtain ⟨rfl, hcolon⟩ := hquote.inj htree.1 htree'.1 (List.cons.inj h).2
    obtain ⟨rfl, hrest⟩ := render_append_inj hquote htree.2.1 htree'.2.1
      (delimited_renderMembers _ _) (delimited_renderMembers _ _) (List.cons.inj hcolon).2
    obtain ⟨rfl, hend⟩ := renderMembers_append_inj hquote htree.2.2 htree'.2.2 hrest
    exact ⟨rfl, hend⟩

theorem renderElements_append_inj (hquote : Quotes quote P) {elements elements' : List JsonTree}
    {r r' : List Char} (helements : ElementsWithin P elements)
    (helements' : ElementsWithin P elements')
    (h : renderElements quote elements ++ r = renderElements quote elements' ++ r') :
    elements = elements' ∧ r = r' := by
  match elements, elements' with
  | [], [] => exact ⟨rfl, (List.cons.inj h).2⟩
  | [], element :: elements => exact absurd (List.cons.inj h).1 (by decide)
  | element :: elements, [] => exact absurd (List.cons.inj h).1 (by decide)
  | element :: elements, element' :: elements' =>
    rw [renderElements, renderElements, List.cons_append, List.cons_append, List.append_assoc,
      List.append_assoc] at h
    obtain ⟨rfl, hrest⟩ := render_append_inj hquote helements.1 helements'.1
      (delimited_renderElements _ _) (delimited_renderElements _ _) (List.cons.inj h).2
    obtain ⟨rfl, hend⟩ := renderElements_append_inj hquote helements.2 helements'.2 hrest
    exact ⟨rfl, hend⟩

theorem renderMembers_append_inj (hquote : Quotes quote P)
    {members members' : List (String × JsonTree)} {r r' : List Char}
    (hmembers : MembersWithin P members) (hmembers' : MembersWithin P members')
    (h : renderMembers quote members ++ r = renderMembers quote members' ++ r') :
    members = members' ∧ r = r' := by
  match members, members' with
  | [], [] => exact ⟨rfl, (List.cons.inj h).2⟩
  | [], member :: members => exact absurd (List.cons.inj h).1 (by decide)
  | member :: members, [] => exact absurd (List.cons.inj h).1 (by decide)
  | (key, value) :: members, (key', value') :: members' =>
    rw [renderMembers, renderMembers, List.cons_append, List.cons_append, member_append,
      member_append] at h
    obtain ⟨rfl, hcolon⟩ := hquote.inj hmembers.1 hmembers'.1 (List.cons.inj h).2
    obtain ⟨rfl, hrest⟩ := render_append_inj hquote hmembers.2.1 hmembers'.2.1
      (delimited_renderMembers _ _) (delimited_renderMembers _ _) (List.cons.inj hcolon).2
    obtain ⟨rfl, hend⟩ := renderMembers_append_inj hquote hmembers.2.2 hmembers'.2.2 hrest
    exact ⟨rfl, hend⟩

end

/-- The text determines the document. -/
theorem render_injective (hquote : Quotes quote P) {tree tree' : JsonTree}
    (htree : tree.Within P) (htree' : tree'.Within P)
    (h : tree.render quote = tree'.render quote) : tree = tree' := by
  have happend : tree.render quote ++ [] = tree'.render quote ++ [] := by rw [h]
  have hend : Delimited [] := fun _ _ hnil => nomatch hnil
  exact (render_append_inj hquote htree htree' hend hend happend).1

end JsonTree

/-! ### Members in the order of their keys -/

/-- The members with another one in its place. -/
def insertMember (member : String × JsonTree) : List (String × JsonTree) → List (String × JsonTree)
  | [] => [member]
  | other :: members =>
      if member.1 < other.1 then member :: other :: members
      else other :: insertMember member members

/-- The members in the order of their keys. -/
def sortMembers (members : List (String × JsonTree)) : List (String × JsonTree) :=
  members.foldr insertMember []

namespace JsonTree

mutual

/-- The document with the members of every object in the order of their keys. -/
def sortKeys : JsonTree → JsonTree
  | .string text => .string text
  | .integer value => .integer value
  | .array elements => .array (sortElements elements)
  | .object members => .object (sortMembers (sortValues members))

/-- The same for the elements of an array. -/
def sortElements : List JsonTree → List JsonTree
  | [] => []
  | element :: elements => element.sortKeys :: sortElements elements

/-- The same for the values of an object. -/
def sortValues : List (String × JsonTree) → List (String × JsonTree)
  | [] => []
  | (key, value) :: members => (key, value.sortKeys) :: sortValues members

end

theorem sortElements_eq_map (elements : List JsonTree) :
    sortElements elements = elements.map sortKeys := by
  induction elements with
  | nil => rfl
  | cons element elements ih => rw [sortElements, ih, List.map_cons]

theorem elementsWithin_iff {P : String → Prop} {elements : List JsonTree} :
    ElementsWithin P elements ↔ ∀ element ∈ elements, element.Within P := by
  induction elements with
  | nil => exact ⟨fun _ => nofun, fun _ => trivial⟩
  | cons element elements ih => rw [ElementsWithin, ih, List.forall_mem_cons]

end JsonTree

/-! ### Quoting by escapes -/

/-- A string in quotation marks, with an escape for each character. -/
def quoted (escape : Char → List Char) (text : String) : List Char :=
  '\x22' :: (text.toList.flatMap escape ++ ['\x22'])

section Escape

variable {escape : Char → List Char} {Q : Char → Prop}

/-- The escape of a character, from the escapes of the two that have one. -/
theorem escape_cases (hplain : ∀ c, Q c → c ≠ '\x22' → c ≠ '\\' → escape c = [c])
    (hmark : escape '\x22' = ['\\', '\x22']) (hsolidus : escape '\\' = ['\\', '\\']) {c : Char}
    (hc : Q c) : (escape c = ['\\', c]) ∨ (escape c = [c] ∧ c ≠ '\x22' ∧ c ≠ '\\') := by
  by_cases hquote : c = '\x22'
  · exact Or.inl (hquote ▸ hmark)
  · by_cases hreverse : c = '\\'
    · exact Or.inl (hreverse ▸ hsolidus)
    · exact Or.inr ⟨hplain c hc hquote hreverse, hquote, hreverse⟩

/-- A quoting that escapes the quotation mark and the reverse solidus, and leaves other characters,
tells where a string ends. -/
theorem quotes_quoted (hplain : ∀ c, Q c → c ≠ '\x22' → c ≠ '\\' → escape c = [c])
    (hmark : escape '\x22' = ['\\', '\x22']) (hsolidus : escape '\\' = ['\\', '\\']) :
    Quotes (quoted escape) fun text => ∀ c ∈ text.toList, Q c where
  start := fun text => ⟨_, rfl⟩
  inj := by
    have hbody (xs ys r r' : List Char) (hxs : ∀ c ∈ xs, Q c) (hys : ∀ c ∈ ys, Q c)
        (h : xs.flatMap escape ++ '\x22' :: r = ys.flatMap escape ++ '\x22' :: r') :
        xs = ys ∧ r = r' := by
      induction xs generalizing ys with
      | nil =>
        cases ys with
        | nil => exact ⟨rfl, (List.cons.inj h).2⟩
        | cons y ys =>
          rcases escape_cases hplain hmark hsolidus (hys y List.mem_cons_self) with
            hy | ⟨hy, hne, -⟩
          · rw [List.flatMap_cons, hy] at h
            exact absurd (List.cons.inj h).1 (by decide)
          · rw [List.flatMap_cons, hy] at h
            exact absurd (List.cons.inj h).1.symm hne
      | cons x xs ih =>
        rw [List.forall_mem_cons] at hxs
        cases ys with
        | nil =>
          rcases escape_cases hplain hmark hsolidus hxs.1 with hx | ⟨hx, hne, -⟩
          · rw [List.flatMap_cons, hx] at h
            exact absurd (List.cons.inj h).1 (by decide)
          · rw [List.flatMap_cons, hx] at h
            exact absurd (List.cons.inj h).1 hne
        | cons y ys =>
          rw [List.forall_mem_cons] at hys
          rw [List.flatMap_cons, List.flatMap_cons, List.append_assoc, List.append_assoc] at h
          rcases escape_cases hplain hmark hsolidus hxs.1 with hx | ⟨hx, -, hxne⟩ <;>
            rcases escape_cases hplain hmark hsolidus hys.1 with hy | ⟨hy, -, hyne⟩ <;>
            rw [hx, hy] at h
          · obtain ⟨hxy, hrest⟩ := List.cons.inj (List.cons.inj h).2
            obtain ⟨hxsys, hr⟩ := ih ys hxs.2 hys.2 hrest
            exact ⟨by rw [hxy, hxsys], hr⟩
          · exact absurd (List.cons.inj h).1.symm hyne
          · exact absurd (List.cons.inj h).1 hxne
          · obtain ⟨hxy, hrest⟩ := List.cons.inj h
            obtain ⟨hxsys, hr⟩ := ih ys hxs.2 hys.2 hrest
            exact ⟨by rw [hxy, hxsys], hr⟩
    intro text text' r r' htext htext' h
    rw [quoted, quoted, List.cons_append, List.cons_append, List.append_assoc,
      List.append_assoc] at h
    obtain ⟨hlists, hr⟩ := hbody _ _ r r' htext htext' (List.cons.inj h).2
    exact ⟨String.toList_injective hlists, hr⟩

end Escape

end MagpieTts.Library
