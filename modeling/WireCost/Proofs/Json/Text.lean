import Mathlib.Data.List.Forall2
import WireCost.Json.Reader
import WireCost.Json.Writer

/-! # JSON texts read back

The reader finds in a written document the value that was written. A text is judged by what the
reader makes of it in any surroundings, and each kind of value has one lemma; the writers are put
together from these.

* **`Json.readString_quoted`**, **`Json.readNumber_toDigits`** — strings and whole numbers.
* **`Json.Writes`** — a text writes a value, with any blanks around its tokens.
* **`Json.Writes.array`**, **`Json.Writes.object`** — from their items and fields.
* **`Json.Plain`** — the values without numbers that are kept as texts.
* **`Json.parse_pretty`**, **`Json.parse_compact`** — a plain value is read back from either
  form. -/

namespace WireCost.Json

/-! ## Lists of values -/

/-- A list that is read item by item as it was written. -/
theorem mapM_map_of_forall {α β : Type} {write : α → β} {read : β → Option α} {l : List α}
    (h : ∀ a ∈ l, read (write a) = some a) : (l.map write).mapM read = some l := by
  induction l with
  | nil => rfl
  | cons a l ih =>
    rw [List.map_cons, List.mapM_cons, h a List.mem_cons_self,
      ih fun b hb => h b (List.mem_cons_of_mem a hb)]
    rfl

/-! ## Strings -/

/-- A character in front of what was read of a string. -/
def withFirst (c : Char) (read : List Piece × List Char) : List Piece × List Char :=
  (some c :: read.1, read.2)

theorem readString_plain {c : Char} (hquote : c ≠ '"') (hslash : c ≠ '\\')
    (hcontrol : ¬ c.toNat < 32) (s : List Char) :
    readString (c :: s) = (readString s).map (withFirst c) := by
  rw [readString.eq_def]
  split
  case h_6 heq =>
    cases heq
    rw [if_neg hcontrol]
    rfl
  all_goals grind

theorem readString_simple {c escaped : Char} (h : simpleEscape? c = some escaped) (s : List Char) :
    readString ('\\' :: c :: s) = (readString s).map (withFirst escaped) := by
  have hu : c ≠ 'u' := by
    rintro rfl
    cases h
  rw [readString.eq_def]
  split
  case h_5 heq =>
    cases heq
    rw [h]
    cases readString s <;> rfl
  all_goals grind

theorem readString_of_bad_code {a b c d : Char} (h : Decimal.natOfDigits? 16 [a, b, c, d] = none)
    (s : List Char) : readString ('\\' :: 'u' :: a :: b :: c :: d :: s) = none := by
  rw [readString.eq_def]
  split
  case h_3 heq =>
    cases heq
    rw [h]
    rfl
  case h_4 heq =>
    cases heq
    rw [h]
    rfl
  all_goals grind

/-- The code of a character that is no half of a pair, whatever follows. -/
theorem readString_code {a b c d : Char} {code : Nat}
    (hcode : Decimal.natOfDigits? 16 [a, b, c, d] = some code) (hlow : code < 0xD800)
    (s : List Char) : readString ('\\' :: 'u' :: a :: b :: c :: d :: s) =
      (readString s).map (withFirst (Char.ofNat code)) := by
  have hhigh : ¬ (0xD800 ≤ code ∧ code < 0xE000) := by omega
  rw [readString.eq_def]
  split
  case h_3 e f g h rest heq =>
    -- another code follows: it is read with the rest, and fails there if it is not one
    cases heq
    simp only [hcode, Option.bind_eq_bind, Option.bind_some]
    cases hsecond : Decimal.natOfDigits? 16 [e, f, g, h] with
    | none =>
      rw [readString_of_bad_code hsecond]
      rfl
    | some second =>
      rw [Option.bind_some, if_neg (by omega), if_neg hhigh]
      cases readString ('\\' :: 'u' :: e :: f :: g :: h :: rest) <;> rfl
  case h_4 heq =>
    cases heq
    simp only [hcode, Option.bind_eq_bind, Option.bind_some, if_neg hhigh]
    cases readString s <;> rfl
  all_goals grind

theorem natOfDigits?_control : ∀ n < 32,
    Decimal.natOfDigits? 16 ['0', '0', hexDigit (n / 16), hexDigit n] = some n := by
  decide

/-- **Every character is read back** from the way it is escaped. -/
theorem readString_escape (c : Char) (s : List Char) :
    readString ((escape c).toList ++ s) = (readString s).map (withFirst c) := by
  unfold escape
  split
  iterate 7 exact readString_simple rfl s
  case h_8 hquote hslash _ _ _ _ _ =>
    split
    case isTrue hcontrol =>
      have h := readString_code (natOfDigits?_control c.toNat hcontrol) (by omega) s
      rw [Char.ofNat_toNat] at h
      simpa using h
    case isFalse hcontrol =>
      rw [String.toList_singleton]
      exact readString_plain hquote hslash hcontrol s

/-- **The body of a string is read back,** up to its closing quote. -/
theorem readString_quoted (cs rest : List Char) :
    readString (cs.flatMap (fun c => (escape c).toList) ++ '"' :: rest) =
      some (cs.map some, rest) := by
  induction cs with
  | nil => simp [readString.eq_def ('"' :: rest)]
  | cons c cs ih =>
    rw [List.flatMap_cons, List.append_assoc, readString_escape, ih]
    rfl

theorem toList_quote (s : String) : (quote s).toList =
    '"' :: (s.toList.flatMap (fun c => (escape c).toList) ++ ['"']) := by
  have hbody : ∀ (cs : List Char) (text : String),
      (cs.foldl (fun text c => text ++ escape c) text).toList =
        text.toList ++ cs.flatMap fun c => (escape c).toList := by
    intro cs
    induction cs with
    | nil => simp
    | cons c cs ih =>
      intro text
      rw [List.foldl_cons, ih, String.toList_append, List.flatMap_cons, List.append_assoc]
  rw [quote, String.foldl_eq_foldl_toList, String.toList_append, String.toList_append, hbody]
  rfl

theorem ofPieces_map_some (s : String) : ofPieces (s.toList.map some) = some s := by
  have hall : (s.toList.map some).mapM id = some s.toList := mapM_map_of_forall fun _ _ => rfl
  rw [ofPieces, hall, Option.map_some, String.ofList_toList]

/-! ## Whole numbers -/

theorem digitValue?_digitChar : ∀ d < 10, Decimal.digitValue? 10 (Nat.digitChar d) = some d := by
  decide

theorem exists_digit_of_mem {n : Nat} {c : Char} (h : c ∈ Nat.toDigits 10 n) :
    ∃ d < 10, c = Nat.digitChar d := by
  induction n using Nat.strongRecOn with
  | ind n ih =>
    by_cases hlt : n < 10
    · rw [Nat.toDigits_of_lt_base hlt, List.mem_singleton] at h
      exact ⟨n, hlt, h⟩
    · rw [Nat.toDigits_of_base_le (by decide) (by omega), List.mem_append, List.mem_singleton] at h
      obtain h | h := h
      · exact ih (n / 10) (by omega) h
      · exact ⟨n % 10, by omega, h⟩

theorem natOfDigits?_toDigits (n : Nat) :
    Decimal.natOfDigits? 10 (Nat.toDigits 10 n) = some n := by
  induction n using Nat.strongRecOn with
  | ind n ih =>
    by_cases hlt : n < 10
    · rw [Nat.toDigits_of_lt_base hlt]
      simp [Decimal.natOfDigits?, digitValue?_digitChar n hlt]
    · rw [Nat.toDigits_of_base_le (by decide) (by omega)]
      have hfront := ih (n / 10) (by omega)
      rw [Decimal.natOfDigits?, if_neg (by simp [Nat.toDigits_ne_nil])] at hfront ⊢
      rw [List.foldlM_append, hfront]
      simp [digitValue?_digitChar (n % 10) (by omega)]
      omega

theorem head?_toDigits_ne {n : Nat} (h : n ≠ 0) : (Nat.toDigits 10 n).head? ≠ some '0' := by
  induction n using Nat.strongRecOn with
  | ind n ih =>
    by_cases hlt : n < 10
    · have hdigit : ∀ d < 10, d ≠ 0 → Nat.digitChar d ≠ '0' := by decide
      rw [Nat.toDigits_of_lt_base hlt, List.head?_cons, Ne, Option.some.injEq]
      exact hdigit n hlt h
    · rw [Nat.toDigits_of_base_le (by decide) (by omega),
        List.head?_append_of_ne_nil _ Nat.toDigits_ne_nil]
      exact ih (n / 10) (by omega) (by omega)

theorem not_padded_toDigits (n : Nat) :
    ¬ ((Nat.toDigits 10 n).length > 1 ∧ (Nat.toDigits 10 n).head? = some '0') := by
  rintro ⟨hlong, hzero⟩
  by_cases hn : n = 0
  · subst hn
    simp at hlong
  · exact head?_toDigits_ne hn hzero

/-- What follows a value does not continue a number. -/
def Ends (rest : List Char) : Prop :=
  ∀ c ∈ rest.head?, Decimal.isDigit c = false ∧ c ≠ '.' ∧ c ≠ 'e' ∧ c ≠ 'E'

/-- The digits of a number end where no further digit follows. -/
theorem takeWhile_toDigits (n : Nat) {rest : List Char} (h : Ends rest) :
    (Nat.toDigits 10 n ++ rest).takeWhile Decimal.isDigit = Nat.toDigits 10 n ∧
      (Nat.toDigits 10 n ++ rest).dropWhile Decimal.isDigit = rest := by
  have hdigits : ∀ c ∈ Nat.toDigits 10 n, Decimal.isDigit c = true := by
    intro c hc
    obtain ⟨d, hd, rfl⟩ := exists_digit_of_mem hc
    rw [Decimal.isDigit, digitValue?_digitChar d hd, Option.isSome_some]
  rw [List.takeWhile_append_of_pos hdigits, List.dropWhile_append_of_pos hdigits]
  cases rest with
  | nil => simp
  | cons c rest => simp [(h c rfl).1]

/-- **A natural number is read back.** -/
theorem readNumber_toDigits (n : Nat) {rest : List Char} (h : Ends rest) :
    readNumber (Nat.toDigits 10 n ++ rest) = some (.integer n, rest) := by
  obtain ⟨htake, hdrop⟩ := takeWhile_toDigits n h
  have hsign : ∀ s, Nat.toDigits 10 n ++ rest ≠ '-' :: s := by
    intro s hs
    rw [hs, List.takeWhile_cons_of_neg (by decide)] at htake
    exact Nat.toDigits_ne_nil htake.symm
  rw [readNumber]
  · simp only [htake, hdrop, natOfDigits?_toDigits, if_neg (not_padded_toDigits n)]
    cases rest with
    | nil => rfl
    | cons c rest =>
      obtain ⟨-, hdot, he, hE⟩ := h c rfl
      simp [hdot, he, hE]
  · exact hsign

/-- **So is a negative one.** -/
theorem readNumber_neg {n : Nat} (hn : n ≠ 0) {rest : List Char} (h : Ends rest) :
    readNumber ('-' :: (Nat.toDigits 10 n ++ rest)) = some (.integer (-n), rest) := by
  obtain ⟨htake, hdrop⟩ := takeWhile_toDigits n h
  rw [readNumber]
  simp only [htake, hdrop, natOfDigits?_toDigits, if_neg (not_padded_toDigits n)]
  cases rest with
  | nil => simp [hn]
  | cons c rest =>
    obtain ⟨-, hdot, he, hE⟩ := h c rfl
    simp [hdot, he, hE, hn]

theorem toList_int (n : Int) : (toString n).toList =
    if 0 ≤ n then Nat.toDigits 10 n.natAbs else '-' :: Nat.toDigits 10 n.natAbs := by
  rw [Int.toString_eq_repr]
  cases n with
  | ofNat n =>
    show (Nat.repr n).toList = _
    rw [Nat.repr_eq_ofList_toDigits, String.toList_ofList]
    simp
  | negSucc n =>
    show ("-" ++ Nat.repr (n + 1)).toList = _
    rw [Nat.repr_eq_ofList_toDigits, String.toList_append, String.toList_ofList]
    simp

/-! ## Blanks -/

/-- Blanks, as they may stand between tokens. -/
def IsGap (g : List Char) : Prop := ∀ c ∈ g, isBlank c = true

instance (g : List Char) : Decidable (IsGap g) :=
  List.decidableBAll _ g

variable {g rest t t' : List Char} {fuel : Nat} {j : Json} {items : List Json}

theorem isGap_nil : IsGap [] := by
  simp [IsGap]

theorem skip_append (h : IsGap g) (s : List Char) : skip (g ++ s) = skip s :=
  List.dropWhile_append_of_pos h

theorem skip_cons {c : Char} (h : isBlank c = false) (s : List Char) : skip (c :: s) = c :: s := by
  rw [skip, List.dropWhile_cons_of_neg (by rw [h]; exact Bool.false_ne_true)]

theorem skip_skip (s : List Char) : skip (skip s) = skip s := by
  induction s with
  | nil => rfl
  | cons c s ih =>
    by_cases hc : isBlank c = true
    · have hskip : skip (c :: s) = skip s := List.dropWhile_cons_of_pos hc
      rw [hskip, ih]
    · rw [skip_cons (Bool.not_eq_true _ ▸ hc), skip_cons (Bool.not_eq_true _ ▸ hc)]

theorem readValue_skip (fuel : Nat) (s : List Char) :
    readValue fuel (skip s) = readValue fuel s := by
  cases fuel with
  | zero => rfl
  | succ fuel => simp only [readValue, skip_skip]

theorem readItems_skip (fuel : Nat) (s : List Char) :
    readItems fuel (skip s) = readItems fuel s := by
  cases fuel with
  | zero => rfl
  | succ fuel => simp only [readItems, readValue_skip]

theorem readFields_skip (fuel : Nat) (s : List Char) :
    readFields fuel (skip s) = readFields fuel s := by
  cases fuel with
  | zero => rfl
  | succ fuel => simp only [readFields, skip_skip]

/-- A number ends at blanks, at a comma and at a closing bracket. -/
theorem ends_gap {c : Char} (hg : IsGap g) (hc : c = ',' ∨ c = ']' ∨ c = '\x7d') (s : List Char) :
    Ends (g ++ c :: s) := by
  have hblank : ∀ d, isBlank d = true → d = ' ' ∨ d = '\t' ∨ d = '\n' ∨ d = '\r' := by
    intro d hd
    simpa [isBlank, or_assoc] using hd
  intro d hd
  cases g with
  | nil =>
    obtain rfl : c = d := Option.some.inj hd
    obtain rfl | rfl | rfl := hc <;> decide
  | cons b g =>
    obtain rfl : b = d := Option.some.inj hd
    obtain rfl | rfl | rfl | rfl := hblank b (hg b List.mem_cons_self) <;> decide

/-! ## Values -/

/-- **A text writes a value:** whatever follows, the reader reads the value from it, with the fuel
that the text is worth. -/
def Writes (t : List Char) (j : Json) : Prop :=
  ∀ fuel rest, 2 * t.length < fuel → Ends rest → readValue fuel (t ++ rest) = some (j, rest)

namespace Writes

theorem of_succ (h : ∀ fuel rest, 2 * t.length ≤ fuel → Ends rest →
    readValue (fuel + 1) (t ++ rest) = some (j, rest)) : Writes t j := by
  intro fuel rest hfuel hrest
  obtain ⟨fuel, rfl⟩ := Nat.exists_eq_add_one_of_ne_zero (Nat.ne_zero_of_lt hfuel)
  exact h fuel rest (Nat.lt_succ_iff.1 hfuel) hrest

/-- Blanks may stand in front of a value. -/
theorem gap (hg : IsGap g) (h : Writes t j) : Writes (g ++ t) j := by
  intro fuel rest hfuel hrest
  rw [List.length_append] at hfuel
  rw [← readValue_skip, List.append_assoc, skip_append hg, readValue_skip]
  exact h fuel rest (by omega) hrest

end Writes

theorem afterWord_append (word : String) (rest : List Char) :
    afterWord word (word.toList ++ rest) = some rest := by
  rw [afterWord, if_pos (List.isPrefixOf_iff_prefix.2 (List.prefix_append _ _)),
    ← String.length_toList, List.drop_left]

theorem writes_null : Writes "null".toList .null := .of_succ fun fuel rest _ _ => by
  show readValue (fuel + 1) ('n' :: ("ull".toList ++ rest)) = _
  rw [readValue, skip_cons (by decide)]
  simp only [afterWord_append, Option.map_some]

theorem writes_true : Writes "true".toList (.bool true) := .of_succ fun fuel rest _ _ => by
  show readValue (fuel + 1) ('t' :: ("rue".toList ++ rest)) = _
  rw [readValue, skip_cons (by decide)]
  simp only [afterWord_append, Option.map_some]

theorem writes_false : Writes "false".toList (.bool false) := .of_succ fun fuel rest _ _ => by
  show readValue (fuel + 1) ('f' :: ("alse".toList ++ rest)) = _
  rw [readValue, skip_cons (by decide)]
  simp only [afterWord_append, Option.map_some]

theorem writes_string (s : String) : Writes (quote s).toList (.string s) :=
  .of_succ fun fuel rest _ _ => by
  rw [toList_quote, List.cons_append, List.append_assoc, readValue, skip_cons (by decide)]
  simp only [List.singleton_append, readString_quoted, Option.map_some, ofPieces_map_some]

/-- What a blank or a value that is no number starts with. -/
def otherStarts : List Char := [' ', '\t', '\n', '\r', '\x7b', '[', '"', 't', 'f', 'n']

theorem readValue_of_number {c : Char} (h : c ∉ otherStarts) (fuel : Nat) (s : List Char) :
    readValue (fuel + 1) (c :: s) = readNumber (c :: s) := by
  have hblank : isBlank c = false := by simp_all [otherStarts, isBlank]
  rw [readValue, skip_cons hblank]
  split <;> simp_all [otherStarts]

theorem digitChar_notMem_otherStarts : ∀ d < 10, Nat.digitChar d ∉ otherStarts := by
  decide

theorem writes_integer (n : Int) : Writes (toString n).toList (.integer n) :=
  .of_succ fun fuel rest _ hrest => by
  rw [toList_int]
  by_cases hn : 0 ≤ n
  · -- the first digit leads the reader to a number
    rw [if_pos hn]
    obtain ⟨c, cs, hdigits⟩ := List.exists_cons_of_ne_nil (Nat.toDigits_ne_nil (b := 10))
    obtain ⟨d, hd, hc⟩ := exists_digit_of_mem (n := n.natAbs) (hdigits ▸ List.mem_cons_self)
    have hread := readNumber_toDigits n.natAbs hrest
    rw [hdigits, List.cons_append] at hread ⊢
    rw [readValue_of_number (hc ▸ digitChar_notMem_otherStarts d hd), hread,
      Int.natAbs_of_nonneg hn]
  · rw [if_neg hn, List.cons_append, readValue_of_number (by decide),
      readNumber_neg (by omega) hrest, Int.ofNat_natAbs_of_nonpos (by omega), Int.neg_neg]

/-! ## Arrays -/

/-- A text writes the items of an array and its closing bracket. -/
def WritesItems (t : List Char) (items : List Json) : Prop :=
  ∀ fuel rest, 2 * t.length + 1 < fuel → readItems fuel (t ++ rest) = some (items, rest)

namespace WritesItems

theorem last (h : Writes t j) (hg : IsGap g) : WritesItems (t ++ (g ++ [']'])) [j] := by
  intro fuel rest hfuel
  simp only [List.length_append, List.length_cons] at hfuel
  cases fuel with
  | zero => omega
  | succ fuel =>
    have hvalue := h fuel (g ++ ']' :: rest) (by omega) (ends_gap hg (by decide) rest)
    rw [readItems, List.append_assoc, List.append_assoc, List.singleton_append, hvalue]
    simp only [Option.bind_eq_bind, Option.bind_some]
    rw [skip_append hg, skip_cons (by decide)]
    rfl

theorem cons (h : Writes t j) (hrest : WritesItems t' items) :
    WritesItems (t ++ ',' :: t') (j :: items) := by
  intro fuel rest hfuel
  simp only [List.length_append, List.length_cons] at hfuel
  cases fuel with
  | zero => omega
  | succ fuel =>
    have hvalue := h fuel (',' :: (t' ++ rest)) (by omega) (ends_gap isGap_nil (by decide) _)
    rw [readItems, List.append_assoc, List.cons_append, hvalue]
    simp only [Option.bind_eq_bind, Option.bind_some]
    rw [skip_cons (by decide)]
    simp only [hrest fuel rest (by omega), Option.bind_some]

/-- **Items are written one after the other,** with commas and blanks between them. -/
theorem intercalate {before between after : List Char} {ts : List (List Char)}
    (hbefore : IsGap before) (hbetween : IsGap between) (hafter : IsGap after)
    (h : List.Forall₂ Writes ts items) (hne : ts ≠ []) :
    WritesItems (before ++ ((',' :: between).intercalate ts ++ (after ++ [']']))) items := by
  induction h generalizing before with
  | nil => exact absurd rfl hne
  | @cons t j ts items ht hts ih =>
    cases hts with
    | nil =>
      rw [List.intercalate_singleton, ← List.append_assoc]
      exact .last (ht.gap hbefore) hafter
    | cons ht' hts =>
      have hcons := cons (ht.gap hbefore) (ih hbetween (List.cons_ne_nil _ _))
      rw [List.intercalate_cons_cons]
      simpa using hcons

end WritesItems

theorem readItems_bracket (fuel : Nat) (s : List Char) : readItems fuel (']' :: s) = none := by
  have hvalue : ∀ fuel, readValue fuel (']' :: s) = none := by
    intro fuel
    cases fuel with
    | zero => rfl
    | succ fuel =>
      simp only [readValue, skip_cons (show isBlank ']' = false by decide)]
      rfl
  cases fuel with
  | zero => rfl
  | succ fuel =>
    rw [readItems, hvalue]
    rfl

/-- **An array is written by its items** behind the opening bracket. -/
theorem Writes.array (h : WritesItems t items) : Writes ('[' :: t) (.array items) :=
  .of_succ fun fuel rest hfuel _ => by
  rw [List.length_cons] at hfuel
  have hitems := h fuel rest (by omega)
  rw [← readItems_skip] at hitems
  simp only [List.cons_append, readValue, skip_cons (show isBlank '[' = false by decide)]
  split
  case h_1 s hs =>
    rw [hs, readItems_bracket] at hitems
    cases hitems
  case h_2 =>
    rw [hitems]
    rfl

theorem Writes.emptyArray : Writes ['[', ']'] (.array []) := .of_succ fun fuel rest _ _ => by
  simp only [List.cons_append, List.nil_append, readValue,
    skip_cons (show isBlank '[' = false by decide), skip_cons (show isBlank ']' = false by decide)]

/-! ## Objects -/

/-- A text writes the fields of an object and its closing brace. -/
def WritesFields (t : List Char) (fields : List (String × Json)) : Prop :=
  ∀ fuel rest, 2 * t.length + 1 < fuel →
    readFields fuel (t ++ rest) = some (fields.map fun f => (some f.1, f.2), rest)

/-- A text writes a field: its key and its value. -/
def WritesField (t : List Char) (f : String × Json) : Prop :=
  ∃ v, Writes v f.2 ∧ t = (quote f.1).toList ++ ':' :: v

/-- **A field is read,** and then the other fields or the closing brace. -/
theorem readFields_field {f : String × Json} {read : List (Option String × Json) × List Char}
    (h : WritesField t f) (hg : IsGap g) (hfuel : 2 * t.length < fuel) (hrest : Ends rest)
    (hnext : (∃ s next, skip rest = ',' :: s ∧ readFields fuel s = some next ∧
        read = ((some f.1, f.2) :: next.1, next.2)) ∨
      ∃ s, skip rest = '\x7d' :: s ∧ read = ([(some f.1, f.2)], s)) :
    readFields (fuel + 1) (g ++ (t ++ rest)) = some read := by
  obtain ⟨v, hv, rfl⟩ := h
  simp only [List.length_append, List.length_cons] at hfuel
  have hvalue := hv fuel rest (by omega) hrest
  rw [readFields, skip_append hg, toList_quote, List.append_assoc, List.cons_append,
    skip_cons (by decide)]
  simp only [List.append_assoc, List.cons_append, List.nil_append]
  rw [readString_quoted]
  simp only [Option.bind_eq_bind, Option.bind_some, skip_cons (show isBlank ':' = false by decide),
    hvalue, ofPieces_map_some]
  obtain ⟨s, next, hskip, hread, rfl⟩ | ⟨s, hskip, rfl⟩ := hnext
  · simp only [hskip, hread, Option.bind_some]
  · simp only [hskip]

/-- **Fields are written one after the other,** with commas and blanks between them. -/
theorem WritesFields.intercalate {before between after : List Char} {ts : List (List Char)}
    {fields : List (String × Json)} (hbefore : IsGap before) (hbetween : IsGap between)
    (hafter : IsGap after) (h : List.Forall₂ WritesField ts fields) (hne : ts ≠ []) :
    WritesFields (before ++ ((',' :: between).intercalate ts ++ (after ++ ['\x7d']))) fields := by
  induction h generalizing before with
  | nil => exact absurd rfl hne
  | @cons t f ts fields ht hts ih =>
    intro fuel rest hfuel
    simp only [List.length_append, List.length_cons] at hfuel
    cases fuel with
    | zero => omega
    | succ fuel =>
      cases hts with
      | nil =>
        rw [List.intercalate_singleton] at hfuel ⊢
        simp only [List.append_assoc, List.singleton_append]
        have hskip : skip (after ++ '\x7d' :: rest) = '\x7d' :: rest := by
          rw [skip_append hafter, skip_cons (by decide)]
        exact readFields_field ht hbefore (by omega) (ends_gap hafter (by decide) rest)
          (.inr ⟨rest, hskip, rfl⟩)
      | @cons t' f' ts fields ht' hts =>
        rw [List.intercalate_cons_cons] at hfuel ⊢
        simp only [List.append_assoc, List.cons_append, List.nil_append, List.length_append,
          List.length_cons] at hfuel ⊢
        have hnext := ih hbetween (List.cons_ne_nil _ _) fuel rest (by
          simp only [List.length_append, List.length_cons]
          omega)
        simp only [List.append_assoc, List.cons_append, List.nil_append] at hnext
        exact readFields_field ht hbefore (by omega) (ends_gap isGap_nil (by decide) _)
          (.inl ⟨_, _, skip_cons (by decide) _, hnext, rfl⟩)

theorem ofFields_map (fields : List (String × Json)) :
    ofFields (fields.map fun f => (some f.1, f.2)) = .object fields := by
  rw [ofFields, mapM_map_of_forall]
  exact fun _ _ => rfl

/-- **An object is written by its fields** behind the opening brace. -/
theorem Writes.object {fields : List (String × Json)} (h : WritesFields t fields) :
    Writes ('\x7b' :: t) (.object fields) := .of_succ fun fuel rest hfuel _ => by
  rw [List.length_cons] at hfuel
  have hfields := h fuel rest (by omega)
  rw [← readFields_skip] at hfields
  simp only [List.cons_append, readValue, skip_cons (show isBlank '\x7b' = false by decide)]
  split
  case h_1 s hs =>
    have hbrace : ∀ fuel, readFields fuel ('\x7d' :: s) = none := by
      intro fuel
      cases fuel <;> rfl
    rw [hs, hbrace] at hfields
    cases hfields
  case h_2 =>
    rw [hfields, Option.map_some, ofFields_map]

theorem Writes.emptyObject : Writes ['\x7b', '\x7d'] (.object []) :=
  .of_succ fun fuel rest _ _ => by
  simp only [List.cons_append, List.nil_append, readValue,
    skip_cons (show isBlank '\x7b' = false by decide),
    skip_cons (show isBlank '\x7d' = false by decide)]

/-! ## Documents -/

/-- **A plain value** holds no number that is kept as a text, and no text without a string. -/
inductive Plain : Json → Prop where
  | null : Plain .null
  | bool (b : Bool) : Plain (.bool b)
  | integer (n : Int) : Plain (.integer n)
  | string (s : String) : Plain (.string s)
  | array {items : List Json} (h : ∀ j ∈ items, Plain j) : Plain (.array items)
  | object {fields : List (String × Json)} (h : ∀ f ∈ fields, Plain f.2) : Plain (.object fields)

theorem compactItems_eq_map (items : List Json) : compactItems items = items.map compact := by
  induction items with
  | nil => rfl
  | cons j items ih => rw [compactItems, ih, List.map_cons]

theorem compactFields_eq_map (fields : List (String × Json)) :
    compactFields fields = fields.map fun f => quote f.1 ++ ":" ++ compact f.2 := by
  induction fields with
  | nil => rfl
  | cons f fields ih => rw [compactFields, ih, List.map_cons]

theorem prettyItems_eq_map (depth : Nat) (items : List Json) :
    prettyItems depth items = items.map (prettyAt depth) := by
  induction items with
  | nil => rfl
  | cons j items ih => rw [prettyItems, ih, List.map_cons]

theorem prettyFields_eq_map (depth : Nat) (fields : List (String × Json)) :
    prettyFields depth fields = fields.map fun f => quote f.1 ++ ": " ++ prettyAt depth f.2 := by
  induction fields with
  | nil => rfl
  | cons f fields ih => rw [prettyFields, ih, List.map_cons]

/-- The parts of a list are written one by one. -/
theorem forall₂_writes {α : Type} {R : List Char → α → Prop} {write : α → String} {l : List α}
    (hg : ∀ a ∈ l, R (write a).toList a) :
    List.Forall₂ R ((l.map write).map String.toList) l := by
  rw [List.map_map, List.forall₂_map_left_iff, List.forall₂_same]
  exact hg

/-- A field is written with a colon, and there may be a gap behind it. -/
theorem WritesField.of_writes {key value : String} {gap : List Char} {j : Json} (colon : String)
    (hcolon : colon.toList = ':' :: gap) (hgap : IsGap gap) (h : Writes value.toList j) :
    WritesField (quote key ++ colon ++ value).toList (key, j) := by
  refine ⟨gap ++ value.toList, h.gap hgap, ?_⟩
  rw [String.toList_append, String.toList_append, List.append_assoc, hcolon]
  rfl

/-- **A plain value is written on one line.** -/
theorem Plain.writes_compact (h : Plain j) : Writes (compact j).toList j := by
  induction h with
  | null => exact writes_null
  | bool b => cases b with
    | false => exact writes_false
    | true => exact writes_true
  | integer n => exact writes_integer n
  | string s => exact writes_string s
  | @array items _ ih =>
    rw [compact, compactItems_eq_map, String.toList_append, String.toList_append,
      String.toList_intercalate]
    cases items with
    | nil => exact .emptyArray
    | cons j items =>
      have hitems : WritesItems ([] ++ ([','].intercalate _ ++ ([] ++ [']']))) _ :=
        .intercalate isGap_nil isGap_nil isGap_nil (forall₂_writes ih) (by simp)
      exact .array hitems
  | @object fields _ ih =>
    rw [compact, compactFields_eq_map, String.toList_append, String.toList_append,
      String.toList_intercalate]
    cases fields with
    | nil => exact .emptyObject
    | cons f fields =>
      have hfields : WritesFields ([] ++ ([','].intercalate _ ++ ([] ++ ['\x7d']))) _ :=
        .intercalate isGap_nil isGap_nil isGap_nil
          (forall₂_writes fun f hf => .of_writes ":" rfl isGap_nil (ih f hf)) (by simp)
      exact .object hfields

/-- The indentation of a line. -/
def indentation (depth : Nat) : List Char := List.replicate (2 * depth) ' '

theorem isGap_indentation (depth : Nat) : IsGap ('\n' :: indentation depth) := by
  intro c hc
  obtain rfl | hc := List.mem_cons.1 hc
  · decide
  · rw [List.eq_of_mem_replicate hc]
    decide

theorem toList_block_nil (opening closing : String) (depth : Nat) :
    (block opening closing depth []).toList = opening.toList ++ closing.toList :=
  String.toList_append

/-- A common start of all entries can be taken for a part of what separates them. -/
theorem intercalate_map_append {α : Type} (start sep : List α) {ls : List (List α)}
    (hne : ls ≠ []) :
    sep.intercalate (ls.map (start ++ ·)) = start ++ (sep ++ start).intercalate ls := by
  induction ls with
  | nil => exact absurd rfl hne
  | cons l ls ih =>
    cases ls with
    | nil => simp
    | cons l' ls =>
      rw [List.map_cons, List.map_cons, List.intercalate_cons_cons, List.intercalate_cons_cons,
        ← List.map_cons, ih (List.cons_ne_nil _ _)]
      simp only [List.append_assoc]

/-- Between its brackets, a block has its entries on lines of their own. -/
theorem toList_block {entries : List String} (hne : entries ≠ []) (opening closing : String)
    (depth : Nat) : (block opening closing depth entries).toList = opening.toList ++
      ('\n' :: indentation (depth + 1) ++ ((',' :: '\n' :: indentation (depth + 1)).intercalate
        (entries.map String.toList) ++ ('\n' :: indentation depth ++ closing.toList))) := by
  have hempty : entries.isEmpty = false := List.isEmpty_eq_false_iff.2 hne
  have hlines : (entries.map
      (String.ofList (List.replicate (2 * (depth + 1)) ' ') ++ ·)).map String.toList =
        (entries.map String.toList).map (indentation (depth + 1) ++ ·) := by
    rw [List.map_map, List.map_map]
    refine List.map_congr_left fun e _ => ?_
    rw [Function.comp_apply, String.toList_append, String.toList_ofList]
    rfl
  rw [block, if_neg (by simp [hempty])]
  simp only [String.toList_append, String.toList_intercalate, hlines, String.toList_ofList]
  rw [intercalate_map_append _ _ (by simpa using hne)]
  simp [indentation]

/-- **A plain value is written over several lines.** -/
theorem Plain.writes_pretty (h : Plain j) (depth : Nat) : Writes (prettyAt depth j).toList j := by
  induction h generalizing depth with
  | null => exact writes_null
  | bool b => cases b with
    | false => exact writes_false
    | true => exact writes_true
  | integer n => exact writes_integer n
  | string s => exact writes_string s
  | @array items _ ih =>
    rw [prettyAt, prettyItems_eq_map]
    cases items with
    | nil =>
      rw [List.map_nil, toList_block_nil]
      exact .emptyArray
    | cons j items =>
      rw [toList_block (by simp)]
      exact .array (.intercalate (isGap_indentation _) (isGap_indentation _) (isGap_indentation _)
        (forall₂_writes fun j hj => ih j hj (depth + 1)) (by simp))
  | @object fields _ ih =>
    rw [prettyAt, prettyFields_eq_map]
    cases fields with
    | nil =>
      rw [List.map_nil, toList_block_nil]
      exact .emptyObject
    | cons f fields =>
      rw [toList_block (by simp)]
      exact .object (.intercalate (isGap_indentation _) (isGap_indentation _) (isGap_indentation _)
        (forall₂_writes fun f hf => .of_writes ": " rfl (by decide) (ih f hf (depth + 1)))
        (by simp))

/-- **A text that writes a value is parsed to it.** -/
theorem parse_of_writes {text : String} (h : Writes text.toList j) : parse text = some j := by
  have hread := h (2 * text.toList.length + 1) [] (by omega) (by simp [Ends])
  rw [List.append_nil] at hread
  rw [parse]
  simp only [hread, skip, List.dropWhile_nil, List.isEmpty_nil, if_true]

theorem parse_compact (h : Plain j) : parse (compact j) = some j :=
  parse_of_writes h.writes_compact

theorem parse_pretty (h : Plain j) : parse (pretty j) = some j :=
  parse_of_writes (h.writes_pretty 0)

end WireCost.Json
