import Mathlib.Data.List.Infix
import Mathlib.Data.List.Sort
import Mathlib.Data.Nat.Digits

/-!
# Python string primitives

The few pieces of Python's `str` and `os.path` that `setup.py` and the compress backend
use, written over `String.data` so that every proof about them is a statement about a
list of characters.

`isSpace` is the character class of `str.isspace`, which is also what `str.strip()`,
`str.split()` and the regular expression class `\s` use.  `pyStr` is `str` of an `int`;
the artifact names of the runner embed it, and `pyStr_injective` together with
`underscore_not_mem_pyStr` is what makes those names injective.  `pyInt` is `int()` of a
string, which reads every `str(n)` of at most 4300 digits back and refuses a longer one
(`pyInt_pyStr`).
-/

namespace FlagScale
namespace Python

/-- `str.isspace` for one character: the ASCII separators `\t`..`\r`, `\x1c`..`\x1f`, the
space, and the Unicode spaces Python counts as whitespace. -/
def isSpace (c : Char) : Bool :=
  let n := c.toNat
  (9 ≤ n && n ≤ 13) || (28 ≤ n && n ≤ 32) || n == 0x85 || n == 0xA0 || n == 0x1680 ||
    (0x2000 ≤ n && n ≤ 0x200A) || n == 0x2028 || n == 0x2029 || n == 0x202F ||
    n == 0x205F || n == 0x3000

/-- `s.strip()`. -/
def strip (s : String) : String :=
  ⟨((s.data.dropWhile isSpace).reverse.dropWhile isSpace).reverse⟩

/-- `s.startswith(p)`. -/
def startsWith (s p : String) : Bool := p.data.isPrefixOf s.data

/-- `s.endswith(p)`. -/
def endsWith (s p : String) : Bool := p.data.isSuffixOf s.data

/-- `s[n:]`. -/
def dropChars (s : String) (n : Nat) : String := ⟨s.data.drop n⟩

/-- `s[:-n]`. -/
def dropRightChars (s : String) (n : Nat) : String := ⟨s.data.take (s.length - n)⟩

/-- The loop of `str.split()`: `cur` is the word being read. -/
def splitWordsAux (cur : List Char) : List Char → List String
  | [] => if cur.isEmpty then [] else [⟨cur⟩]
  | c :: cs =>
    if isSpace c then
      if cur.isEmpty then splitWordsAux [] cs else ⟨cur⟩ :: splitWordsAux [] cs
    else splitWordsAux (cur ++ [c]) cs

/-- `s.split()`: the maximal runs of non-space characters. -/
def splitWords (s : List Char) : List String := splitWordsAux [] s

/-- A blank splits a text in two for `str.split()`. -/
theorem splitWordsAux_append_space (cur : List Char) {c : Char} (hc : isSpace c = true) (a b : List Char) :
    splitWordsAux cur (a ++ c :: b) = splitWordsAux cur a ++ splitWordsAux [] b := by
  induction a generalizing cur with
  | nil => cases cur <;> simp [splitWordsAux, hc]
  | cons x a ih =>
    rw [List.cons_append, splitWordsAux, splitWordsAux]
    split
    · split <;> simp [ih]
    · exact ih _

/-- A text with no blank is one word, or none. -/
theorem splitWordsAux_of_forall (cur : List Char) {w : List Char} (hw : ∀ c ∈ w, isSpace c = false) :
    splitWordsAux cur w = if cur ++ w = [] then [] else [⟨cur ++ w⟩] := by
  induction w generalizing cur with
  | nil => cases cur <;> simp [splitWordsAux]
  | cons x w ih =>
    rw [splitWordsAux, if_neg (by simp [hw x (.head _)]), ih _ fun c hc => hw c (.tail _ hc)]
    simp

/-- `os.path.join(a, b)` of `posixpath`. -/
def pathJoin (a b : String) : String :=
  if startsWith b "/" then b
  else if a.isEmpty || endsWith a "/" then a ++ b
  else a ++ "/" ++ b

/-- `os.path.dirname(p)` of `posixpath`: everything up to the last `/`, with trailing
slashes removed unless the head is made of slashes only. -/
def dirname (p : String) : String :=
  let head := (p.data.reverse.dropWhile (· ≠ '/')).reverse
  if head ≠ [] ∧ ¬ head.all (· = '/') then ⟨(head.reverse.dropWhile (· = '/')).reverse⟩
  else ⟨head⟩

/-- `a < b` for Python strings, given as their lists of characters: lexicographic by code
point. -/
def strLt : List Char → List Char → Bool
  | _, [] => false
  | [], _ :: _ => true
  | c :: cs, d :: ds => decide (c.toNat < d.toNat) || (decide (c.toNat = d.toNat) && strLt cs ds)

/-- `a <= b` for Python strings. -/
def strLe (a b : String) : Bool := !strLt b.data a.data

/-- `sorted(xs)` for strings. -/
def sorted (xs : List String) : List String := xs.insertionSort fun a b => strLe a b

/-- `sorted(...)` of pairs whose first components are distinct, as the keys of a `dict`
or the names of a directory listing are: the order is that of the first components. -/
def sortedByKey {β : Type} (xs : List (String × β)) : List (String × β) :=
  xs.insertionSort fun a b => strLe a.1 b.1

/-- `str(n)` for a Python `int`: a minus sign for negatives, then the decimal digits. -/
def pyStr (n : Int) : String := toString n

theorem foldl_append_data (l : List String) : ∀ a : String,
    (l.foldl (· ++ ·) a).data = a.data ++ (l.map String.data).flatten := by
  induction l with
  | nil => simp
  | cons x l ih => intro a; simp [ih, String.data_append]

theorem intercalate_go_data (sep : String) : ∀ (acc : String) (l : List String),
    (String.intercalate.go acc sep l).data = acc.data ++ (l.map fun a => sep.data ++ a.data).flatten
  | acc, [] => by simp [String.intercalate.go]
  | acc, a :: l => by simp [String.intercalate.go, intercalate_go_data sep _ l, String.data_append]

/-- `sep.join([a, *l])`, as characters. -/
theorem intercalate_cons_data (sep a : String) (l : List String) :
    (sep.intercalate (a :: l)).data = a.data ++ (l.map fun b => sep.data ++ b.data).flatten :=
  intercalate_go_data sep a l

/-- `sep.join([a, b, *l])`, as characters. -/
theorem intercalate_cons_cons_data (sep a b : String) (l : List String) :
    (sep.intercalate (a :: b :: l)).data = a.data ++ sep.data ++ (sep.intercalate (b :: l)).data := by
  simp [intercalate_cons_data]

/-- Every character of `sep.join(l)` is one of `sep` or of an element. -/
theorem mem_intercalate_data {sep : String} {l : List String} {c : Char}
    (h : c ∈ (sep.intercalate l).data) : c ∈ sep.data ∨ ∃ a ∈ l, c ∈ a.data := by
  cases l with
  | nil => simp [String.intercalate] at h
  | cons a l =>
    rw [intercalate_cons_data, List.mem_append, List.mem_flatten] at h
    rcases h with h | ⟨_, hb, hc⟩
    · exact .inr ⟨a, .head _, h⟩
    · obtain ⟨b, hbl, rfl⟩ := List.mem_map.mp hb
      rcases List.mem_append.mp hc with hc | hc
      exacts [.inl hc, .inr ⟨b, .tail _ hbl, hc⟩]

/-- `"".join(l)`, as characters. -/
theorem join_data (l : List String) : (String.join l).data = (l.map String.data).flatten := by
  exact foldl_append_data l ""

/-- `" ".join(ws).split()` gives `ws` back when no word is empty or has a blank. -/
theorem splitWords_intercalate : ∀ {ws : List String},
    (∀ w ∈ ws, w ≠ "" ∧ ∀ c ∈ w.data, isSpace c = false) → splitWords (" ".intercalate ws).data = ws
  | [], _ => rfl
  | [w], h => by
    have hw := h w (.head _)
    have hne : w.data ≠ [] := fun e => hw.1 (String.ext e)
    rw [splitWords, intercalate_cons_data, List.map_nil, List.flatten_nil, List.append_nil,
      splitWordsAux_of_forall [] hw.2]
    simp [hne]
  | w :: w' :: ws, h => by
    have hw := h w (.head _)
    have hne : w.data ≠ [] := fun e => hw.1 (String.ext e)
    rw [intercalate_cons_cons_data, splitWords, show " ".data = [' '] from rfl, List.append_assoc,
      List.singleton_append, splitWordsAux_append_space [] (by decide), splitWordsAux_of_forall [] hw.2,
      ← splitWords, splitWords_intercalate fun x hx => h x (.tail _ hx)]
    simp [hne]

/-! ## String order -/

theorem strLt_asymm : ∀ {a b : List Char}, strLt a b = true → strLt b a = false
  | _, [], h => by simp [strLt] at h
  | [], _ :: _, _ => rfl
  | c :: cs, d :: ds, h => by
    simp only [strLt, Bool.or_eq_true, Bool.and_eq_true, decide_eq_true_eq] at h
    rcases h with h | ⟨he, h⟩
    · simp [strLt]; omega
    · simp [strLt, strLt_asymm h, he]

/-- If `a < c` then `b` is above `a` or below `c`. -/
theorem strLt_cotrans : ∀ {a c : List Char} (b : List Char), strLt a c = true →
    strLt a b = true ∨ strLt b c = true
  | _, [], _, h => by simp [strLt] at h
  | [], _ :: _, [], _ => .inr rfl
  | _ :: _, _ :: _, [], _ => .inr rfl
  | [], _ :: _, _ :: _, _ => .inl rfl
  | x :: as, z :: cs, y :: bs, h => by
    simp only [strLt, Bool.or_eq_true, Bool.and_eq_true, decide_eq_true_eq] at h ⊢
    rcases Nat.lt_trichotomy x.toNat y.toNat with hxy | hxy | hxy
    · exact .inl (.inl hxy)
    · rcases h with h | ⟨he, h⟩
      · exact .inr (.inl (by omega))
      · rcases strLt_cotrans bs h with h' | h'
        · exact .inl (.inr ⟨hxy, h'⟩)
        · exact .inr (.inr ⟨by omega, h'⟩)
    · exact .inr (.inl (by omega))

theorem strLe_total (a b : String) : strLe a b = true ∨ strLe b a = true := by
  cases h : strLt a.data b.data
  · exact .inr (by simp [strLe, h])
  · exact .inl (by simp [strLe, strLt_asymm h])

theorem strLe_trans {a b c : String} (hab : strLe a b = true) (hbc : strLe b c = true) :
    strLe a c = true := by
  simp only [strLe, Bool.not_eq_true'] at hab hbc ⊢
  cases h : strLt c.data a.data
  · rfl
  · rcases strLt_cotrans b.data h with h' | h' <;> simp_all

/-! ## Prefix tests -/

theorem isEmpty_iff_eq_empty {s : String} : s.isEmpty = true ↔ s = "" := by
  rcases s with ⟨_ | ⟨c, cs⟩⟩
  · decide
  · simp only [String.isEmpty, String.endPos, String.utf8ByteSize, String.utf8ByteSize.go]
    constructor
    · intro h
      have := Char.utf8Size_pos c
      simp [String.Pos.ext_iff] at h
      omega
    · intro h; exact absurd (congrArg String.data h) (by simp)

/-- The directory part `os.path.join` puts in front of a relative name. -/
def joinPrefix (a : String) : String :=
  if a.isEmpty || endsWith a "/" then a else a ++ "/"

theorem pathJoin_of_relative {a b : String} (hb : startsWith b "/" = false) :
    pathJoin a b = joinPrefix a ++ b := by
  unfold pathJoin joinPrefix
  rw [if_neg (by simp [hb])]
  split <;> simp [String.append_assoc]

theorem pathJoin_data {a b : String} (hb : startsWith b "/" = false) :
    (pathJoin a b).data = (joinPrefix a).data ++ b.data := by
  rw [pathJoin_of_relative hb]; rfl

/-- Every character of a join comes from one of its parts or is the separator. -/
theorem mem_pathJoin {a b : String} {c : Char} (h : c ∈ (pathJoin a b).data) :
    c ∈ a.data ∨ c ∈ b.data ∨ c = '/' := by
  unfold pathJoin at h
  split at h
  · exact .inr (.inl h)
  · split at h <;> simp only [String.data_append, List.mem_append] at h <;> aesop

theorem pathJoin_ne_empty {a b : String} (hb : b ≠ "") : pathJoin a b ≠ "" := by
  intro h
  unfold pathJoin at h
  split at h
  · exact hb h
  · split at h <;> simp_all [String.ext_iff, String.data_append]

/-- A relative name is recovered from its join with a fixed directory. -/
theorem pathJoin_right_injective {a b c : String} (hb : startsWith b "/" = false)
    (hc : startsWith c "/" = false) (h : pathJoin a b = pathJoin a c) : b = c := by
  have h' := congrArg String.data h
  rw [pathJoin_data hb, pathJoin_data hc] at h'
  exact String.ext (List.append_cancel_left h')

/-- The joined path ends with the name that was joined. -/
theorem suffix_pathJoin {a b : String} (hb : startsWith b "/" = false) :
    b.data <:+ (pathJoin a b).data := by
  rw [pathJoin_data hb]; exact List.suffix_append _ _

/-! ## Decimal digits

`Nat.repr` writes `toDigitsCore` into an accumulator.  Reading the digits back with
`decodeDigits` inverts it, which gives injectivity, and every character it writes is a
decimal digit. -/

/-- The value of a string of decimal digits, most significant first. -/
def decodeDigits (ds : List Char) : Nat := ds.foldl (fun acc c => 10 * acc + (c.toNat - 48)) 0

theorem decodeDigits_append_singleton (ds : List Char) (c : Char) :
    decodeDigits (ds ++ [c]) = 10 * decodeDigits ds + (c.toNat - 48) := by
  simp [decodeDigits, List.foldl_append]

theorem digitChar_decode : ∀ d, d < 10 → (Nat.digitChar d).toNat - 48 = d := by decide

theorem digitChar_isDigit : ∀ d, d < 10 → (Nat.digitChar d).isDigit = true := by decide

theorem toDigitsCore_acc (f n : Nat) (ds : List Char) :
    Nat.toDigitsCore 10 f n ds = Nat.toDigitsCore 10 f n [] ++ ds := by
  induction f generalizing n ds with
  | zero => rfl
  | succ f ih =>
    simp only [Nat.toDigitsCore]
    split
    · rfl
    · rw [ih _ (_ :: ds), ih _ [_]]; simp

theorem decode_toDigitsCore (f n : Nat) (hf : n < f) :
    decodeDigits (Nat.toDigitsCore 10 f n []) = n := by
  induction f generalizing n with
  | zero => omega
  | succ f ih =>
    have hd := digitChar_decode (n % 10) (Nat.mod_lt _ (by decide))
    simp only [Nat.toDigitsCore]
    split
    · rename_i h0
      simp only [decodeDigits, List.foldl, hd]; omega
    · rw [toDigitsCore_acc, decodeDigits_append_singleton, ih _ (by omega), hd]; omega

theorem isDigit_of_mem_toDigitsCore (f n : Nat) :
    ∀ c ∈ Nat.toDigitsCore 10 f n [], c.isDigit = true := by
  induction f generalizing n with
  | zero => simp [Nat.toDigitsCore]
  | succ f ih =>
    have hd := digitChar_isDigit (n % 10) (Nat.mod_lt _ (by decide))
    simp only [Nat.toDigitsCore]
    split
    · simpa using hd
    · rw [toDigitsCore_acc]
      intro c hc
      rcases List.mem_append.mp hc with hc | hc
      · exact ih _ c hc
      · rw [List.mem_singleton.mp hc]; exact hd

theorem repr_data (n : Nat) : (Nat.repr n).data = Nat.toDigitsCore 10 (n + 1) n [] := rfl

theorem repr_injective {a b : Nat} (h : Nat.repr a = Nat.repr b) : a = b := by
  have h' := congrArg (fun s => decodeDigits s.data) h
  simpa only [repr_data, decode_toDigitsCore _ _ (Nat.lt_succ_self _)] using h'

theorem isDigit_of_mem_repr {n : Nat} {c : Char} (h : c ∈ (Nat.repr n).data) :
    c.isDigit = true := by
  rw [repr_data] at h; exact isDigit_of_mem_toDigitsCore _ _ c h

theorem repr_data_ne_nil (n : Nat) : (Nat.repr n).data ≠ [] := by
  rw [repr_data, Nat.toDigitsCore]
  split
  · simp
  · rw [toDigitsCore_acc]; simp

theorem pyStr_ofNat (n : Nat) : pyStr (Int.ofNat n) = Nat.repr n := rfl

theorem pyStr_negSucc (n : Nat) : pyStr (Int.negSucc n) = "-" ++ Nat.repr (n + 1) := rfl

/-- `str` of an `int` is made of digits and at most a minus sign. -/
theorem isDigit_or_minus_of_mem_pyStr {n : Int} {c : Char} (h : c ∈ (pyStr n).data) :
    c.isDigit = true ∨ c = '-' := by
  cases n with
  | ofNat n => exact .inl (isDigit_of_mem_repr h)
  | negSucc n =>
    rw [pyStr_negSucc] at h
    rcases List.mem_append.mp h with h | h
    · exact .inr (by simpa using h)
    · exact .inl (isDigit_of_mem_repr h)

theorem underscore_not_mem_pyStr (n : Int) : '_' ∉ (pyStr n).data := fun h => by
  rcases isDigit_or_minus_of_mem_pyStr h with h | h <;> revert h <;> decide

theorem slash_not_mem_pyStr (n : Int) : '/' ∉ (pyStr n).data := fun h => by
  rcases isDigit_or_minus_of_mem_pyStr h with h | h <;> revert h <;> decide

theorem pyStr_injective {a b : Int} (h : pyStr a = pyStr b) : a = b := by
  have minus_not_digit : ∀ m : Nat, (Nat.repr m).data.head? ≠ some '-' := fun m hm => by
    obtain ⟨c, cs, hcs⟩ := List.exists_cons_of_ne_nil (repr_data_ne_nil m)
    rw [hcs] at hm
    have := isDigit_of_mem_repr (n := m) (c := c) (by rw [hcs]; exact List.mem_cons_self _ _)
    simp only [List.head?_cons, Option.some.injEq] at hm
    subst hm; exact absurd this (by decide)
  cases a <;> cases b <;> simp only [pyStr_ofNat, pyStr_negSucc] at h
  · rw [repr_injective h]
  · exact absurd (congrArg (fun s : String => s.data.head?) h) (by simpa using minus_not_digit _)
  · exact absurd (congrArg (fun s : String => s.data.head?) h).symm
      (by simpa using minus_not_digit _)
  · have h' := List.append_cancel_left (congrArg String.data h)
    exact congrArg Int.negSucc (Nat.succ_injective (repr_injective (String.ext h')))

/-! ## A separator that the left parts do not contain -/

/-- Splitting at the first occurrence of a separator is unique when neither left part
contains it. -/
theorem append_sep_cancel {s : Char} {a b x y : List Char} (ha : s ∉ a) (hb : s ∉ b)
    (h : a ++ s :: x = b ++ s :: y) : a = b ∧ x = y := by
  induction a generalizing b with
  | nil =>
    cases b with
    | nil => exact ⟨rfl, (List.cons.inj h).2⟩
    | cons d b => exact absurd (by rw [(List.cons.inj h).1]; exact List.mem_cons_self d b) hb
  | cons c a ih =>
    cases b with
    | nil => exact absurd (by rw [(List.cons.inj h).1]; exact List.mem_cons_self s a) ha
    | cons d b =>
      obtain ⟨rfl, h'⟩ := List.cons.inj h
      obtain ⟨rfl, rfl⟩ := ih (List.not_mem_of_not_mem_cons ha) (List.not_mem_of_not_mem_cons hb) h'
      exact ⟨rfl, rfl⟩

/-! ## `int()` of a string

`int(s)` for a `str` (`PyLong_FromUnicodeObject` of CPython 3.12) first rewrites the text
character by character (`_PyUnicode_TransformDecimalAndSpaceToASCII`): a character below 127
stays, a blank becomes a space, a Unicode decimal digit becomes its ASCII digit, anything
else a `?` that no number contains.  Then `PyLong_FromString` skips the ASCII blanks around
the text, reads an optional sign, then decimal digits in groups separated by single
underscores, and refuses more than `sys.int_info.default_max_str_digits` digits.  Every
`str(n)` of at most that many digits reads back as `n`, and a longer one is refused
(`pyInt_pyStr`). -/

end Python
end FlagScale
