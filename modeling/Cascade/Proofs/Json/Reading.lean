import Cascade.Json.Reader

/-!
# Written JSON is read back

The text of a value is read as the value again, as long as its containers are not
nested too deeply, and is refused when they are. This is about values without
numbers: `Json.Plain`.

There are three groups.

* Quoted text. Every escape that is written is undone (`unquote?_escaped`).
* One step of the reader, by the token that comes next.
* Whole values. `Plain.isReadBack` says what the reader does with the text of a
  value, whatever containers are open around it and whatever text follows, and
  `Plain.read?_compact` what it does with the text alone.
-/

namespace Cascade

/-! ## Quoted text -/

namespace Text

theorem hexValue?_hexDigit : ∀ n < 16, hexValue? (hexDigit n) = some n := by
  decide

/-- A control character is written with its code, and that is read back. -/
theorem unit?_hexDigits {n : Nat} (h : n < 0x20) :
    unit? '0' '0' (hexDigit (n / 16)) (hexDigit (n % 16)) = some n := by
  have hzero : hexValue? '0' = some 0 := by decide
  have hhigh := hexValue?_hexDigit (n / 16) (by omega)
  have hlow := hexValue?_hexDigit (n % 16) (by omega)
  have hsum : ((0 * 16 + 0) * 16 + n / 16) * 16 + n % 16 = n := by omega
  simp only [unit?, hzero, hhigh, hlow, Option.bind_eq_bind, Option.bind_some, Option.pure_def,
    hsum]

/-- How a character is written: with a letter of its own, with its code, or as it
is. -/
theorem unquote?_escapeChar (c : Char) (cs : List Char) :
    unquote? (escapeChar c ++ cs) = prepend c (unquote? cs) := by
  by_cases hletter : c ∈ ['"', '\\', '\x08', '\x0c', '\n', '\r', '\t']
  · simp only [List.mem_cons, List.not_mem_nil, or_false] at hletter
    rcases hletter with rfl | rfl | rfl | rfl | rfl | rfl | rfl <;>
      simp [escapeChar, unquote?, unescape?]
  · simp only [List.mem_cons, List.not_mem_nil, or_false, not_or] at hletter
    obtain ⟨hquote, hslash, h₁, h₂, h₃, h₄, h₅⟩ := hletter
    simp only [escapeChar, hquote, hslash, h₁, h₂, h₃, h₄, h₅, if_false]
    split
    · next hcontrol =>
      have hunit := unit?_hexDigits hcontrol
      have hsmall : c.toNat < 0xD800 ∨ 0xE000 ≤ c.toNat := by omega
      simp [unquote?, hunit, hsmall]
    · next hplain => simp [unquote?, hslash, hplain]

/-- What has been written between quotes is read as the text it stands for, up to
the closing quote. -/
theorem unquote?_escaped (text rest : List Char) :
    unquote? (text.flatMap escapeChar ++ '"' :: rest) = some (text, rest) := by
  induction text with
  | nil => simp [unquote?]
  | cons c text ih =>
    rw [List.flatMap_cons, List.append_assoc, unquote?_escapeChar, ih]
    rfl

end Text

namespace Json

/-! ## One step -/

namespace Token

theorem next?_quoted (s : String) (rest : List Char) :
    next? ((Text.quoted s).toList ++ rest) = some (text s, rest) := by
  have hspace : isSpace '"' = false := by decide
  simp [next?, Text.quoted, hspace, here?, Text.unquote?_escaped]

theorem next?_openArray (rest : List Char) : next? ('[' :: rest) = some (openArray, rest) := rfl

theorem next?_closeArray (rest : List Char) : next? (']' :: rest) = some (closeArray, rest) := rfl

theorem next?_openObject (rest : List Char) :
    next? ('\x7b' :: rest) = some (openObject, rest) := rfl

theorem next?_closeObject (rest : List Char) :
    next? ('\x7d' :: rest) = some (closeObject, rest) := rfl

theorem next?_comma (rest : List Char) : next? (',' :: rest) = some (comma, rest) := rfl

theorem next?_colon (rest : List Char) : next? (':' :: rest) = some (colon, rest) := rfl

end Token

theorem value_eq (limit : Nat) (stack : List Frame) (cs : List Char) :
    value limit stack cs =
      match Token.next? cs with
      | some (.scalar v, rest) => afterValue limit v stack rest
      | some (.text s, rest) => afterValue limit (string s) stack rest
      | some (.openArray, rest) =>
        if stack.length < limit then
          match Token.next? rest with
          | some (.closeArray, rest') => afterValue limit (array []) stack rest'
          | _ => value limit (.array [] :: stack) rest
        else
          none
      | some (.openObject, rest) =>
        if stack.length < limit then
          match Token.next? rest with
          | some (.closeObject, rest') => afterValue limit (object []) stack rest'
          | _ => member limit [] stack rest
        else
          none
      | _ => none := by
  rw [value]
  split <;> simp_all only
  · congr 1
    split <;> simp_all
  · congr 1
    split <;> simp_all

section Steps

variable {limit : Nat} {stack outer : List Frame} {v : Json} {done : List Json}
  {members : List (String × Json)} {key : String} {cs : List Char}

theorem value_quoted (s : String) :
    value limit stack ((Text.quoted s).toList ++ cs) = afterValue limit (string s) stack cs := by
  rw [value_eq, Token.next?_quoted]

theorem value_array_full (hfull : ¬stack.length < limit) :
    value limit stack ('[' :: cs) = none := by
  rw [value_eq, Token.next?_openArray]
  exact if_neg hfull

theorem value_array_empty (hopen : stack.length < limit) :
    value limit stack ('[' :: ']' :: cs) = afterValue limit (array []) stack cs := by
  rw [value_eq, Token.next?_openArray]
  exact if_pos hopen

theorem value_array_open (hopen : stack.length < limit)
    (hitem : ∀ rest, Token.next? cs ≠ some (.closeArray, rest)) :
    value limit stack ('[' :: cs) = value limit (.array [] :: stack) cs := by
  rw [value_eq, Token.next?_openArray]
  simp only [if_pos hopen]

theorem value_object_full (hfull : ¬stack.length < limit) :
    value limit stack ('\x7b' :: cs) = none := by
  rw [value_eq, Token.next?_openObject]
  exact if_neg hfull

theorem value_object_empty (hopen : stack.length < limit) :
    value limit stack ('\x7b' :: '\x7d' :: cs) = afterValue limit (object []) stack cs := by
  rw [value_eq, Token.next?_openObject]
  exact if_pos hopen

theorem value_object_open (hopen : stack.length < limit) (key : String) :
    value limit stack ('\x7b' :: ((Text.quoted key).toList ++ cs)) =
      member limit [] stack ((Text.quoted key).toList ++ cs) := by
  rw [value_eq, Token.next?_openObject]
  simp only [if_pos hopen, Token.next?_quoted]

theorem afterValue_array_comma :
    afterValue limit v (.array done :: outer) (',' :: cs) =
      value limit (.array (v :: done) :: outer) cs := by
  rw [afterValue]
  split <;> simp_all [Token.next?_comma]

theorem afterValue_array_close :
    afterValue limit v (.array done :: outer) (']' :: cs) =
      afterValue limit (array (v :: done).reverse) outer cs := by
  rw [afterValue]
  split <;> simp_all [Token.next?_closeArray]

theorem afterValue_object_comma :
    afterValue limit v (.object members key :: outer) (',' :: cs) =
      member limit (setMember key v members) outer cs := by
  rw [afterValue]
  split <;> simp_all [Token.next?_comma]

theorem afterValue_object_close :
    afterValue limit v (.object members key :: outer) ('\x7d' :: cs) =
      afterValue limit (object (setMember key v members)) outer cs := by
  rw [afterValue]
  split <;> simp_all [Token.next?_closeObject]

theorem member_quoted (key : String) :
    member limit members outer ((Text.quoted key).toList ++ ':' :: cs) =
      value limit (.object members key :: outer) cs := by
  rw [member]
  split
  · next _ _ hkey =>
    simp only [Token.next?_quoted, Option.some.injEq, Prod.mk.injEq, Token.text.injEq] at hkey
    obtain ⟨rfl, rfl⟩ := hkey
    split <;> simp_all [Token.next?_colon]
  · simp_all [Token.next?_quoted]

end Steps

/-! ## Whole values -/

/-- A value without numbers, in which no object has a key twice. -/
inductive Plain : Json → Prop where
  | null : Plain null
  | bool (value : Bool) : Plain (bool value)
  | string (s : String) : Plain (string s)
  | array {items : List Json} (hitems : ∀ v ∈ items, Plain v) : Plain (array items)
  | object {members : List (String × Json)} (hkeys : (members.map Prod.fst).Nodup)
      (hmembers : ∀ member ∈ members, Plain member.2) : Plain (object members)

mutual

/-- How many containers are open at the same time, at most, while the value is
read. -/
def nesting : Json → Nat
  | array items => 1 + nestingItems items
  | object members => 1 + nestingMembers members
  | null | bool _ | number _ | string _ => 0

/-- The deepest nesting of an item. -/
def nestingItems : List Json → Nat
  | [] => 0
  | item :: items => max item.nesting (nestingItems items)

/-- The deepest nesting of the value of a member. -/
def nestingMembers : List (String × Json) → Nat
  | [] => 0
  | (_, value) :: members => max value.nesting (nestingMembers members)

end

theorem commaSeparated_singleton (x : String) : commaSeparated [x] = x := rfl

theorem toList_commaSeparated_cons (x y : String) (xs : List String) :
    (commaSeparated (x :: y :: xs)).toList =
      x.toList ++ ',' :: (commaSeparated (y :: xs)).toList := by
  simp [commaSeparated, String.toList_intercalate]

theorem exists_toList_commaSeparated (x : String) (xs : List String) :
    ∃ tail, (commaSeparated (x :: xs)).toList = x.toList ++ tail := by
  cases xs with
  | nil => exact ⟨[], by rw [commaSeparated_singleton, List.append_nil]⟩
  | cons y xs => exact ⟨_, toList_commaSeparated_cons x y xs⟩

theorem toList_member (key : String) (v : Json) :
    (Text.quoted key ++ ":" ++ v.compact).toList =
      (Text.quoted key).toList ++ ':' :: v.compact.toList := by
  simp

/-- A member with a new key comes last. -/
theorem setMember_of_nodup {key : String} {v : Json} {done members : List (String × Json)}
    (h : ((done ++ (key, v) :: members).map Prod.fst).Nodup) :
    setMember key v done = done ++ [(key, v)] := by
  induction done with
  | nil => rfl
  | cons member done ih =>
    rw [List.cons_append, List.map_cons, List.nodup_cons] at h
    have hne : member.1 ≠ key := by
      intro he
      exact h.1 (by simp [he])
    rw [setMember, if_neg hne, ih h.2, List.cons_append]

/-- The text of the value is read as the value, under any open containers and in
front of any text, unless the limit does not allow as many containers. -/
def IsReadBack (limit : Nat) (v : Json) : Prop :=
  ∀ stack rest, stack.length ≤ limit →
    value limit stack (v.compact.toList ++ rest) =
      if stack.length + v.nesting ≤ limit then afterValue limit v stack rest else none

section Containers

variable {limit : Nat} {outer : List Frame}

/-- What comes first has to be within the limit, and then what comes next. -/
theorem ite_max_le {α : Type} (a b n : Nat) (x : Option α) :
    (if n + max a b ≤ limit then x else none) =
      if n + a ≤ limit then if n + b ≤ limit then x else none else none := by
  grind

theorem value_items (done : List Json) {item : Json} {items : List Json} (rest : List Char)
    (houter : outer.length < limit) (h : ∀ v ∈ item :: items, IsReadBack limit v) :
    value limit (.array done :: outer)
        ((commaSeparated (compactItems (item :: items))).toList ++ ']' :: rest) =
      if outer.length + 1 + nestingItems (item :: items) ≤ limit then
        afterValue limit (array (done.reverse ++ item :: items)) outer rest
      else none := by
  induction items generalizing item done with
  | nil =>
    have hitem := h item List.mem_cons_self (.array done :: outer) (']' :: rest) houter
    rw [compactItems, compactItems, commaSeparated_singleton, hitem, afterValue_array_close]
    simp [nestingItems]
  | cons next items ih =>
    rw [List.forall_mem_cons] at h
    have hitem := h.1 (.array done :: outer)
      (',' :: ((commaSeparated (compactItems (next :: items))).toList ++ ']' :: rest)) houter
    have hitems := ih (item :: done) h.2
    have hnesting : nestingItems (item :: next :: items) =
        max item.nesting (nestingItems (next :: items)) := rfl
    rw [hnesting, ite_max_le, compactItems, compactItems, toList_commaSeparated_cons,
      ← compactItems, List.append_assoc, List.cons_append, hitem, afterValue_array_comma, hitems]
    simp

theorem member_members (done : List (String × Json)) {key : String} {v : Json}
    {members : List (String × Json)} (rest : List Char) (houter : outer.length < limit)
    (hkeys : ((done ++ (key, v) :: members).map Prod.fst).Nodup)
    (h : ∀ member ∈ (key, v) :: members, IsReadBack limit member.2) :
    member limit done outer
        ((commaSeparated (compactMembers ((key, v) :: members))).toList ++ '\x7d' :: rest) =
      if outer.length + 1 + nestingMembers ((key, v) :: members) ≤ limit then
        afterValue limit (object (done ++ (key, v) :: members)) outer rest
      else none := by
  induction members generalizing key v done with
  | nil =>
    have hv := h _ List.mem_cons_self (.object done key :: outer) ('\x7d' :: rest) houter
    rw [compactMembers, compactMembers, commaSeparated_singleton, toList_member, List.append_assoc,
      List.cons_append, member_quoted, hv, afterValue_object_close,
      setMember_of_nodup hkeys]
    simp [nestingMembers]
  | cons next members ih =>
    obtain ⟨key', v'⟩ := next
    rw [List.forall_mem_cons] at h
    have hv := h.1 (.object done key :: outer)
      (',' :: ((commaSeparated (compactMembers ((key', v') :: members))).toList ++ '\x7d' :: rest))
      houter
    have hmembers := ih (done ++ [(key, v)]) (by simpa using hkeys) h.2
    have hnesting : nestingMembers ((key, v) :: (key', v') :: members) =
        max v.nesting (nestingMembers ((key', v') :: members)) := rfl
    rw [hnesting, ite_max_le, compactMembers, compactMembers, toList_commaSeparated_cons,
      ← compactMembers, toList_member, List.append_assoc, List.append_assoc, List.cons_append,
      List.cons_append, member_quoted, hv, afterValue_object_comma, setMember_of_nodup hkeys,
      hmembers]
    simp

end Containers

theorem toList_compact_array (items : List Json) (rest : List Char) :
    (array items).compact.toList ++ rest =
      '[' :: ((commaSeparated (compactItems items)).toList ++ ']' :: rest) := by
  simp [compact]

theorem toList_compact_object (members : List (String × Json)) (rest : List Char) :
    (object members).compact.toList ++ rest =
      '\x7b' :: ((commaSeparated (compactMembers members)).toList ++ '\x7d' :: rest) := by
  simp [compact]

/-- The text of a value starts with a token that closes nothing. -/
theorem Plain.next?_ne_closeArray {v : Json} (h : Plain v) (rest rest' : List Char) :
    Token.next? (v.compact.toList ++ rest) ≠ some (.closeArray, rest') := by
  cases h with
  | null => exact nofun
  | bool b => cases b <;> exact nofun
  | string s => simp [compact, Token.next?_quoted]
  | array => simp [toList_compact_array, Token.next?_openArray]
  | object => simp [toList_compact_object, Token.next?_openObject]

/-- The text of an array is read back if those of its items are. -/
theorem isReadBack_array {limit : Nat} {items : List Json} (hplain : ∀ v ∈ items, Plain v)
    (h : ∀ v ∈ items, IsReadBack limit v) : IsReadBack limit (array items) := by
  intro stack rest hstack
  rw [toList_compact_array, nesting, ← Nat.add_assoc]
  by_cases hopen : stack.length < limit
  · cases items with
    | nil => exact (value_array_empty hopen).trans (if_pos hopen).symm
    | cons item items =>
      have hitem : ∀ rest', Token.next?
          ((commaSeparated (compactItems (item :: items))).toList ++ ']' :: rest) ≠
            some (.closeArray, rest') := by
        obtain ⟨tail, htail⟩ := exists_toList_commaSeparated item.compact (compactItems items)
        rw [compactItems, htail, List.append_assoc]
        exact (hplain item List.mem_cons_self).next?_ne_closeArray _
      rw [value_array_open hopen hitem, value_items [] rest hopen h]
      rfl
  · rw [value_array_full hopen, if_neg (by omega)]

/-- The text of an object is read back if those of its values are. -/
theorem isReadBack_object {limit : Nat} {members : List (String × Json)}
    (hkeys : (members.map Prod.fst).Nodup) (h : ∀ member ∈ members, IsReadBack limit member.2) :
    IsReadBack limit (object members) := by
  intro stack rest hstack
  rw [toList_compact_object, nesting, ← Nat.add_assoc]
  by_cases hopen : stack.length < limit
  · cases members with
    | nil => exact (value_object_empty hopen).trans (if_pos hopen).symm
    | cons first members =>
      obtain ⟨key, v⟩ := first
      have hmembers := member_members [] rest hopen hkeys h
      obtain ⟨tail, htail⟩ := exists_toList_commaSeparated
        (Text.quoted key ++ ":" ++ v.compact) (compactMembers members)
      rw [compactMembers, htail, toList_member, List.append_assoc, List.append_assoc] at hmembers ⊢
      rw [value_object_open hopen, hmembers]
      rfl
  · rw [value_object_full hopen, if_neg (by omega)]

theorem Plain.isReadBack {v : Json} (h : Plain v) (limit : Nat) : IsReadBack limit v := by
  induction h with
  | null =>
    intro stack rest hstack
    rw [nesting, Nat.add_zero, if_pos hstack]
    exact value_eq limit stack _
  | bool b =>
    intro stack rest hstack
    rw [nesting, Nat.add_zero, if_pos hstack]
    cases b <;> exact value_eq limit stack _
  | string s =>
    intro stack rest hstack
    rw [compact, value_quoted, nesting, Nat.add_zero, if_pos hstack]
  | array hitems ih => exact isReadBack_array hitems ih
  | object hkeys _ ih => exact isReadBack_object hkeys ih

/-- The text of a value is read as the value, up to the limit on nesting and not
beyond. -/
theorem Plain.read?_compact {v : Json} (h : Plain v) :
    read? v.compact = if v.nesting ≤ nestingLimit then some v else none := by
  have hread := h.isReadBack nestingLimit [] [] (Nat.zero_le _)
  rw [List.append_nil] at hread
  rw [read?, hread]
  simp [afterValue]

end Json

end Cascade
