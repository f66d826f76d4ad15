import Criteria.Json.Token
import Criteria.Json.Writer
import Criteria.Proofs.Json.Inside
import Criteria.Proofs.Text.Span
import Mathlib.Algebra.Group.Nat.Defs
import Mathlib.Data.List.Basic

/-!
# The lexemes of written values

Both forms in which a value is written are made of the same lexemes, `Json.tokens`. They differ in
the blanks between them, which the scanner drops.

Three kinds of lexemes are more than fixed words. A string is read character by character, and every
escape stands for the character that it was made from. A number is read as far as it goes on, so
that what follows it must not look like a part of it; in a written value, nothing that follows one
does. And an integer is read as an integer only if it fits 64 bits. Doubles are left aside: values
with integers of 64 bits only are `IsWhole`.

* `Token.Scans` — the scanner reads lexemes from a text and leaves a rest;
* `Token.scanText_escaped`, `Token.scanNumber_int` — strings and integers are read back;
* `scans_array`, `scans_object` — the lexemes of a container are those of its parts and its
  brackets, with blanks in between.
-/

namespace Criteria.Json

/-! ### Values with integers only -/

/-- All numbers inside of a value are integers of 64 bits. -/
def IsWhole (value : Json) : Prop :=
  ∀ number, (Json.number number).Inside value → ∃ i, number = .int i ∧ IsInt64 i

theorem IsWhole.of_inside {part whole : Json} (h : whole.IsWhole) (hpart : part.Inside whole) :
    part.IsWhole :=
  fun number hnumber => h number (hnumber.trans hpart)

theorem isWhole_array {items : List Json} :
    (array items).IsWhole ↔ ∀ item ∈ items, item.IsWhole := by
  constructor
  · exact fun h item hitem => h.of_inside (.item hitem .self)
  · intro h number hnumber
    cases hnumber with
    | item hitem hinside => exact h _ hitem number hinside

theorem isWhole_object {members : Members} :
    (object members).IsWhole ↔ ∀ member ∈ members, member.2.IsWhole := by
  constructor
  · exact fun h member hmember => h.of_inside (.member hmember .self)
  · intro h number hnumber
    cases hnumber with
    | member hmember hinside => exact h _ hmember number hinside

theorem isWhole_string (text : String) : (string text).IsWhole := nofun

theorem isWhole_bool (value : Bool) : (bool value).IsWhole := nofun

theorem isWhole_nat {n : Nat} (hn : n < 2 ^ 64) : (nat n).IsWhole := by
  intro number hnumber
  cases hnumber with
  | self =>
    have hbounds : IsInt64 n := by
      unfold IsInt64
      omega
    exact ⟨n, rfl, hbounds⟩

/-! ### The lexemes of a value -/

mutual

/-- The lexemes of a value. -/
def tokens : Json → List Token
  | .string s => [.text s]
  | .array [] => [.beginArray, .endArray]
  | .array (item :: items) =>
    .beginArray :: (tokens item ++ (tokensOfItems items ++ [.endArray]))
  | .object [] => [.beginObject, .endObject]
  | .object ((key, value) :: members) =>
    .beginObject :: .text key :: .colon ::
      (tokens value ++ (tokensOfMembers members ++ [.endObject]))
  | scalar => [.scalar scalar]

/-- The lexemes of further items, each behind a comma. -/
def tokensOfItems : List Json → List Token
  | [] => []
  | item :: items => .comma :: (tokens item ++ tokensOfItems items)

/-- The lexemes of further members, each behind a comma. -/
def tokensOfMembers : List (String × Json) → List Token
  | [] => []
  | (key, value) :: members =>
    .comma :: .text key :: .colon :: (tokens value ++ tokensOfMembers members)

end

namespace Token

variable {chars rest : List Char} {found others : List Token}

/-! ### Reading lexeme by lexeme -/

/-- The scanner reads lexemes from a text and leaves a rest. -/
inductive Scans : List Char → List Token → List Char → Prop
  | none {rest : List Char} : Scans rest [] rest
  | blank {c : Char} {chars rest : List Char} {found : List Token} (hblank : isBlank c = true)
      (h : Scans chars found rest) : Scans (c :: chars) found rest
  | lexeme {c : Char} {more chars rest : List Char} {token : Token} {found : List Token}
      (hsolid : isBlank c = false) (hnext : next? (c :: more ++ chars) = some (token, chars))
      (h : Scans chars found rest) : Scans (c :: more ++ chars) (token :: found) rest

theorem Scans.trans {middle : List Char} (hfirst : Scans chars found middle)
    (hsecond : Scans middle others rest) : Scans chars (found ++ others) rest := by
  induction hfirst with
  | none => exact hsecond
  | blank hblank _ ih => exact .blank hblank (ih hsecond)
  | lexeme hsolid hnext _ ih => exact .lexeme hsolid hnext (ih hsecond)

/-- Every lexeme takes at least one character. -/
theorem Scans.length_le (h : Scans chars found rest) :
    found.length + rest.length ≤ chars.length := by
  induction h with
  | none => simp
  | blank _ _ ih =>
    rw [List.length_cons]
    omega
  | lexeme _ _ _ ih =>
    rw [List.cons_append, List.length_cons, List.length_cons, List.length_append]
    omega

/-- A lexeme of a single character. -/
theorem Scans.mark {c : Char} {token : Token} (hsolid : isBlank c = false)
    (hnext : next? (c :: chars) = some (token, chars)) (h : Scans chars found rest) :
    Scans (c :: chars) (token :: found) rest :=
  @Scans.lexeme c [] chars rest token found hsolid hnext h

/-- Blanks in front of lexemes. -/
theorem Scans.gap {gap : List Char} (hgap : ∀ c ∈ gap, isBlank c = true)
    (h : Scans chars found rest) : Scans (gap ++ chars) found rest := by
  induction gap with
  | nil => exact h
  | cons c gap ih =>
    obtain ⟨hc, hgap⟩ := List.forall_mem_cons.1 hgap
    exact .blank hc (ih hgap)

/-- What is read without a rest is what the scanner finds. -/
theorem scanFrom_of_scans {rest : List Char} (h : Scans chars found rest) (hrest : rest = [])
    (acc : List Token) {fuel : Nat} (hfuel : chars.length ≤ fuel) :
    scanFrom acc fuel chars = some (acc.reverse ++ found) := by
  induction h generalizing acc fuel with
  | none =>
    subst hrest
    rw [scanFrom, List.append_nil]
  | @blank c chars rest found hblank _ ih =>
    cases fuel with
    | zero => cases hfuel
    | succ fuel =>
      rw [scanFrom, if_pos hblank]
      exact ih hrest acc (Nat.le_of_succ_le_succ hfuel)
  | @lexeme c more chars rest token found hsolid hnext _ ih =>
    cases fuel with
    | zero => cases hfuel
    | succ fuel =>
      have hshorter : chars.length ≤ fuel := by
        rw [List.cons_append, List.length_cons, List.length_append] at hfuel
        omega
      have hstep : scanFrom acc (fuel + 1) (c :: more ++ chars) =
          scanFrom (token :: acc) fuel chars := by
        rw [List.cons_append] at hnext ⊢
        rw [scanFrom, if_neg (by simp [hsolid]), hnext]
      rw [hstep, ih hrest (token :: acc) hshorter, List.reverse_cons, List.append_assoc]
      rfl

theorem scan_of_scans {text : String} (h : Scans text.toList found []) :
    scan text = some found :=
  scanFrom_of_scans h rfl [] (Nat.le_of_eq String.length_toList)

/-! ### Strings -/

/-- The code of a control character, as it is escaped. -/
theorem codeUnit?_control : ∀ n < 0x20,
    codeUnit? '0' '0' (hexDigit (n / 16)) (hexDigit (n % 16)) = some n := by
  decide

/-- A control character is read back from its code. -/
theorem scanText_control (before : List Char) {c : Char} (hcontrol : c.toNat < 0x20)
    (rest : List Char) :
    scanText ⟨some before, none⟩
        ('\\' :: 'u' :: '0' :: '0' :: hexDigit (c.toNat / 16) :: hexDigit (c.toNat % 16) :: rest) =
      scanText ⟨some (c :: before), none⟩ rest := by
  rw [scanText, codeUnit?_control c.toNat hcontrol]
  -- its code is too small for half of a pair
  have hleading : isLeading c.toNat = false := by
    have hlow : ¬ 0xD800 ≤ c.toNat := by omega
    simp [isLeading, hlow]
  have htrailing : isTrailing c.toNat = false := by
    have hlow : ¬ 0xDC00 ≤ c.toNat := by omega
    simp [isTrailing, hlow]
  have hunit : OpenText.addUnit ⟨some before, none⟩ c.toNat = ⟨some (c :: before), none⟩ := by
    simp [OpenText.addUnit, hleading, htrailing, OpenText.addChar]
  exact congrArg (scanText · rest) hunit

/-- A character that needs no escape stands for itself. -/
theorem scanText_plain (before : List Char) {c : Char} (hquote : c ≠ '"') (hbackslash : c ≠ '\\')
    (hcontrol : ¬ c.toNat < 0x20) (rest : List Char) :
    scanText ⟨some before, none⟩ (c :: rest) = scanText ⟨some (c :: before), none⟩ rest := by
  rw [scanText]
  · rw [if_neg (by simp [hcontrol, hbackslash])]
    rfl
  · exact hquote
  · exact fun _ _ _ _ _ heq => absurd heq hbackslash
  · exact fun _ _ heq => absurd heq hbackslash

/-- An escape stands for the character that it was made from. -/
theorem scanText_escapeChar (before : List Char) (c : Char) (rest : List Char) :
    scanText ⟨some before, none⟩ (escapeChar c ++ rest) =
      scanText ⟨some (c :: before), none⟩ rest := by
  unfold escapeChar
  split
  -- the seven characters with an escape of their own
  iterate 7 rfl
  next hquote hbackslash _ _ _ _ _ =>
    by_cases hcontrol : c.toNat < 0x20
    · rw [if_pos hcontrol]
      exact scanText_control before hcontrol rest
    · rw [if_neg hcontrol]
      exact scanText_plain before hquote hbackslash hcontrol rest

/-- **A string is read back from its escaped form.** -/
theorem scanText_escaped (before chars rest : List Char) :
    scanText ⟨some before, none⟩ (chars.flatMap escapeChar ++ '"' :: rest) =
      some (.text (String.ofList (before.reverse ++ chars)), rest) := by
  induction chars generalizing before with
  | nil =>
    rw [List.append_nil]
    rfl
  | cons c chars ih =>
    rw [List.flatMap_cons, List.append_assoc, scanText_escapeChar, ih, List.reverse_cons,
      List.append_assoc]
    rfl

/-! ### Numbers -/

/-- A character with which a number could go on. -/
def continuesNumber (c : Char) : Bool := c.isDigit || c = '.' || c = 'e' || c = 'E'

/-- What does not go on like a number does not begin with one of its characters. -/
theorem ne_of_ends {c : Char} {chars : List Char} (h : Text.Ends continuesNumber (c :: chars))
    {other : Char} (hother : continuesNumber other = true) : c ≠ other := by
  rintro rfl
  rw [Text.ends_cons.1 h] at hother
  cases hother

theorem ends_isDigit (h : Text.Ends continuesNumber rest) : Text.Ends Char.isDigit rest := by
  intro c hc
  have hnot := h c hc
  simp only [continuesNumber, Bool.or_eq_false_iff] at hnot
  exact hnot.1.1.1

theorem digitChar_ne : ∀ n < 10, n ≠ 0 → Nat.digitChar n ≠ '0' := by
  decide

/-- The digits of a number do not start with a zero unless it is zero. -/
theorem head?_toDigits_ne (n : Nat) (hn : n ≠ 0) : (Nat.toDigits 10 n).head? ≠ some '0' := by
  induction n using Nat.strongRecOn with
  | ind n ih =>
    by_cases hsmall : n < 10
    · rw [Nat.toDigits_of_lt_base hsmall]
      exact fun h => digitChar_ne n hsmall hn (Option.some.inj h)
    · -- the first digit is that of the number without its last digit
      rw [Nat.toDigits_of_base_le (by decide) (Nat.le_of_not_lt hsmall),
        List.head?_append_of_ne_nil _ Nat.toDigits_ne_nil]
      exact ih (n / 10) (by omega) (by omega)

theorem scanWhole_toDigits (n : Nat) (hrest : Text.Ends continuesNumber rest) :
    scanWhole (Nat.toDigits 10 n ++ rest) = some (Nat.toDigits 10 n, rest) := by
  by_cases hn : n = 0
  · subst hn
    rfl
  · have hdigits : ∀ c ∈ Nat.toDigits 10 n, c.isDigit = true := fun c hc =>
      Nat.isDigit_of_mem_toDigits (by decide) (by decide) hc
    have hne : (Nat.toDigits 10 n).isEmpty = false :=
      List.isEmpty_eq_false_iff.2 Nat.toDigits_ne_nil
    have hhead : ∀ tail, Nat.toDigits 10 n ++ rest ≠ '0' :: tail := by
      intro tail heq
      have hfirst := congrArg List.head? heq
      rw [List.head?_append_of_ne_nil _ Nat.toDigits_ne_nil] at hfirst
      exact head?_toDigits_ne n hn hfirst
    rw [scanWhole]
    · rw [Text.takeWhile_append hdigits (ends_isDigit hrest),
        Text.dropWhile_append hdigits (ends_isDigit hrest), hne]
      rfl
    · exact hhead

theorem scanFraction_of_ends (hrest : Text.Ends continuesNumber rest) :
    scanFraction rest = some ([], rest) := by
  unfold scanFraction
  split
  · exact absurd rfl (ne_of_ends hrest (by decide : continuesNumber '.' = true))
  · rfl

theorem scanExponent_of_ends (hrest : Text.Ends continuesNumber rest) :
    scanExponent rest = some (none, rest) := by
  unfold scanExponent
  dsimp only
  split
  · exact absurd rfl (ne_of_ends hrest (by decide : continuesNumber 'e' = true))
  · exact absurd rfl (ne_of_ends hrest (by decide : continuesNumber 'E' = true))
  · rfl

theorem scanUnsigned_toDigits {negative : Bool} {n : Nat} (hfits : fits64 negative n = true)
    (hrest : Text.Ends continuesNumber rest) :
    scanUnsigned negative (Nat.toDigits 10 n ++ rest) =
      some (some (.int (if negative then -(n : Int) else n)), rest) := by
  have hvalue : Text.decimal (Nat.toDigits 10 n) = n := Nat.ofDigitChars_ten_toDigits
  unfold scanUnsigned
  simp [scanWhole_toDigits n hrest, scanFraction_of_ends hrest, scanExponent_of_ends hrest, hvalue,
    hfits]

/-- **An integer of 64 bits is read back from its digits.** -/
theorem scanNumber_int {i : Int} (hi : IsInt64 i) (hrest : Text.Ends continuesNumber rest) :
    scanNumber ((numberText (.int i)).toList ++ rest) = some (some (.int i), rest) := by
  obtain ⟨hlow, hhigh⟩ := hi
  cases i with
  | ofNat n =>
    have hbound : n < 2 ^ 64 := by
      rw [Int.ofNat_eq_natCast] at hhigh
      omega
    have hfits : fits64 false n = true := decide_eq_true hbound
    have htext : (numberText (.int (Int.ofNat n))).toList = Nat.toDigits 10 n := Nat.toList_repr
    have hsign : ∀ tail, Nat.toDigits 10 n ++ rest ≠ '-' :: tail := by
      intro tail heq
      have hfirst := congrArg List.head? heq
      rw [List.head?_append_of_ne_nil _ Nat.toDigits_ne_nil] at hfirst
      have hdigit : '-'.isDigit = true :=
        Nat.isDigit_of_mem_toDigits (by decide) (by decide) (List.mem_of_head? hfirst)
      cases hdigit
    rw [htext, scanNumber]
    · exact scanUnsigned_toDigits hfits hrest
    · exact hsign
  | negSucc n =>
    have hbound : 0 < n + 1 ∧ n + 1 ≤ 2 ^ 63 := by omega
    have hfits : fits64 true (n + 1) = true := decide_eq_true hbound
    have htext : (numberText (.int (Int.negSucc n))).toList = '-' :: Nat.toDigits 10 (n + 1) := by
      show ("-" ++ (n + 1).repr).toList = _
      rw [String.toList_append, Nat.toList_repr]
      rfl
    rw [htext]
    exact scanUnsigned_toDigits hfits hrest

/-! ### Scalars -/

/-- A character with which an integer begins. -/
def StartsNumber (c : Char) : Prop := c.isDigit = true ∨ c = '-'

theorem StartsNumber.isBlank_eq_false {c : Char} (hc : StartsNumber c) : isBlank c = false := by
  refine Bool.eq_false_iff.2 fun hblank => ?_
  simp only [isBlank, Bool.or_eq_true, decide_eq_true_eq] at hblank
  rcases hblank with ((rfl | rfl) | rfl) | rfl <;> rcases hc with hc | hc <;> cases hc

theorem exists_numberText (i : Int) :
    ∃ c more, (numberText (.int i)).toList = c :: more ∧ StartsNumber c := by
  cases i with
  | ofNat n =>
    have htext : (numberText (.int (Int.ofNat n))).toList = Nat.toDigits 10 n := Nat.toList_repr
    obtain ⟨c, more, hdigits⟩ := List.exists_cons_of_ne_nil (@Nat.toDigits_ne_nil n 10)
    have hc : c ∈ Nat.toDigits 10 n := hdigits ▸ List.mem_cons_self
    exact ⟨c, more, htext.trans hdigits,
      .inl (Nat.isDigit_of_mem_toDigits (by decide) (by decide) hc)⟩
  | negSucc n =>
    refine ⟨'-', (n + 1).repr.toList, ?_, .inr rfl⟩
    exact String.toList_append

/-- What begins like a number is read as one. -/
theorem next?_number {c : Char} (hc : StartsNumber c) :
    next? (c :: chars) = (scanNumber (c :: chars)).map fun (value, rest) =>
      (value.elim .unreadable fun number => .scalar (.number number), rest) := by
  unfold next?
  split
  -- no other lexeme begins so
  iterate 10 next heq =>
    obtain ⟨rfl, -⟩ := List.cons.inj heq
    rcases hc with hc | hc <;> cases hc
  rfl

theorem scans_int {i : Int} (hi : IsInt64 i) (hrest : Text.Ends continuesNumber rest) :
    Scans ((numberText (.int i)).toList ++ rest) [.scalar (.number (.int i))] rest := by
  have hnumber := scanNumber_int hi hrest
  obtain ⟨c, more, htext, hc⟩ := exists_numberText i
  rw [htext, List.cons_append] at hnumber
  rw [htext]
  refine .lexeme hc.isBlank_eq_false ?_ .none
  rw [List.cons_append, next?_number hc, hnumber]
  rfl

theorem scans_quoted (s : String) (rest : List Char) :
    Scans ((quoted s).toList ++ rest) [.text s] rest := by
  have htext : (quoted s).toList = '"' :: (s.toList.flatMap escapeChar ++ ['"']) :=
    String.toList_ofList
  rw [htext]
  refine .lexeme rfl ?_ .none
  show scanText {} (s.toList.flatMap escapeChar ++ ['"'] ++ rest) = _
  rw [List.append_assoc, List.singleton_append, scanText_escaped, List.reverse_nil,
    List.nil_append, String.ofList_toList]

end Token

/-! ### Containers -/

section

open Token

variable {item value : Json} {items : List Json} {members : Members} {key : String}
  {gap gap' text texts rest : List Char}

/-- A member has its key and its value, with blanks behind the colon. -/
theorem scans_member (hgap : ∀ c ∈ gap, isBlank c = true)
    (hvalue : Scans (text ++ rest) value.tokens rest) :
    Scans ((quoted key).toList ++ ':' :: (gap ++ (text ++ rest)))
      (.text key :: .colon :: value.tokens) rest :=
  (scans_quoted key _).trans (.mark rfl rfl (.gap hgap hvalue))

/-- A list has its items between brackets, with blanks inside of them. -/
theorem scans_array (hgap : ∀ c ∈ gap, isBlank c = true) (hgap' : ∀ c ∈ gap', isBlank c = true)
    (hitem : Scans (text ++ (texts ++ (gap' ++ ']' :: rest))) item.tokens
      (texts ++ (gap' ++ ']' :: rest)))
    (hitems : Scans (texts ++ (gap' ++ ']' :: rest)) (tokensOfItems items) (gap' ++ ']' :: rest)) :
    Scans ('[' :: (gap ++ (text ++ (texts ++ (gap' ++ ']' :: rest)))))
      (tokens (.array (item :: items))) rest := by
  have hclose : Scans (gap' ++ ']' :: rest) [.endArray] rest := .gap hgap' (.mark rfl rfl .none)
  exact .mark rfl rfl (.gap hgap (hitem.trans (hitems.trans hclose)))

/-- An object has its members between braces, with blanks inside of them. -/
theorem scans_object (hgap : ∀ c ∈ gap, isBlank c = true) (hgap' : ∀ c ∈ gap', isBlank c = true)
    (hmember : Scans (text ++ (texts ++ (gap' ++ '\x7d' :: rest)))
      (.text key :: .colon :: value.tokens) (texts ++ (gap' ++ '\x7d' :: rest)))
    (hmembers : Scans (texts ++ (gap' ++ '\x7d' :: rest)) (tokensOfMembers members)
      (gap' ++ '\x7d' :: rest)) :
    Scans ('\x7b' :: (gap ++ (text ++ (texts ++ (gap' ++ '\x7d' :: rest)))))
      (tokens (.object ((key, value) :: members))) rest := by
  have hclose : Scans (gap' ++ '\x7d' :: rest) [.endObject] rest :=
    .gap hgap' (.mark rfl rfl .none)
  exact .mark rfl rfl (.gap hgap (hmember.trans (hmembers.trans hclose)))

/-- A further item stands behind a comma and blanks. -/
theorem scans_furtherItem (hgap : ∀ c ∈ gap, isBlank c = true)
    (hitem : Scans (text ++ (texts ++ rest)) item.tokens (texts ++ rest))
    (hitems : Scans (texts ++ rest) (tokensOfItems items) rest) :
    Scans (',' :: (gap ++ (text ++ (texts ++ rest)))) (tokensOfItems (item :: items)) rest :=
  .mark rfl rfl (.gap hgap (hitem.trans hitems))

/-- A further member stands behind a comma and blanks. -/
theorem scans_furtherMember (hgap : ∀ c ∈ gap, isBlank c = true)
    (hmember : Scans (text ++ (texts ++ rest)) (.text key :: .colon :: value.tokens)
      (texts ++ rest))
    (hmembers : Scans (texts ++ rest) (tokensOfMembers members) rest) :
    Scans (',' :: (gap ++ (text ++ (texts ++ rest)))) (tokensOfMembers ((key, value) :: members))
      rest :=
  .mark rfl rfl (.gap hgap (hmember.trans hmembers))

end

end Criteria.Json
