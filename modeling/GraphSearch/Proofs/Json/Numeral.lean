import GraphSearch.Json.Printer
import GraphSearch.Proofs.Json.Proper
/-!
# Numbers and their texts

A numeral is read the same wherever it stands, as long as what follows cannot continue it, and
the text of an integer is read back as that integer.

* `endsNumeral`: what may follow a numeral;
* `readNumeral_append`: a numeral is read without looking beyond its end;
* `readNumeral_int`: every integer that fits 64 bits reads back;
* `Number.readsBack`: the numbers that do.  All integers that were read are among them, but not
  all doubles, because a numeral is not always read as the double nearest to it.
-/

namespace GraphSearch.Json

/-! ## 1.  What follows a numeral -/

/-- A text that cannot continue a numeral. -/
def endsNumeral : List Char → Bool
  | [] => true
  | c :: _ => !isDigit c && c ≠ '.' && c ≠ 'e' && c ≠ 'E'

variable {rest : List Char}

theorem head?_of_endsNumeral (h : endsNumeral rest = true) :
    rest.head?.any isDigit = false ∧ rest.head?.any (· ∈ ['e', 'E']) = false := by
  cases rest with
  | nil => exact ⟨rfl, rfl⟩
  | cons c rest =>
    simp only [endsNumeral, Bool.and_eq_true, Bool.not_eq_true', decide_eq_true_eq] at h
    obtain ⟨⟨⟨hdigit, -⟩, he⟩, hE⟩ := h
    exact ⟨hdigit, by simp [he, hE]⟩

/-- What ends a numeral does not bring in a character that would continue it. -/
theorem append_ne_cons {text : List Char} {c : Char} (hrest : endsNumeral rest = true)
    (hc : endsNumeral [c] = false) (h : ∀ body, text ≠ c :: body) (body : List Char) :
    text ++ rest ≠ c :: body := by
  intro hbody
  cases text with
  | nil =>
    rw [List.nil_append] at hbody
    rw [hbody] at hrest
    exact Bool.false_ne_true (hc.symm.trans hrest)
  | cons d text =>
    obtain ⟨rfl, -⟩ := List.cons.inj hbody
    exact h text rfl

theorem spanDigits_append (h : endsNumeral rest = true) (text : List Char) :
    spanDigits (text ++ rest) = ((spanDigits text).1, (spanDigits text).2 ++ rest) := by
  have hrest : rest.takeWhile isDigit = [] ∧ rest.dropWhile isDigit = rest := by
    cases rest with
    | nil => exact ⟨rfl, rfl⟩
    | cons c rest =>
      have hc : isDigit c = false := (head?_of_endsNumeral h).1
      simp [hc]
  simp only [spanDigits]
  induction text with
  | nil => rw [List.nil_append, hrest.1, hrest.2]; rfl
  | cons c text ih =>
    obtain ⟨htake, hdrop⟩ := Prod.mk.inj ih
    by_cases hc : isDigit c = true
    · simp [hc, htake, hdrop]
    · simp [hc]

theorem exponentDigits_append (h : endsNumeral rest = true) (value : Nat) (text : List Char) :
    exponentDigits value (text ++ rest) =
      match exponentDigits value text with
      | .small shift => .small shift
      | .huge left => .huge (left ++ rest) := by
  induction text generalizing value with
  | nil =>
    cases rest with
    | nil => rfl
    | cons c rest =>
      have hc : isDigit c = false := (head?_of_endsNumeral h).1
      simp [exponentDigits, hc]
  | cons c text ih =>
    rw [List.cons_append, exponentDigits, exponentDigits]
    by_cases hc : isDigit c = true
    · by_cases hbound : 10 * value + digitValue c < exponentBound
      · simp only [hc, hbound, if_true, ih]
      · simp only [hc, hbound, if_true, if_false]
    · simp only [hc, if_false, Bool.false_eq_true]

/-! ## 2.  A numeral is read without looking beyond its end -/

section

variable {negative : Bool} {digits dropped : Nat} {exponent : Int} {text left : List Char}
  {n : Number}

theorem makeDouble_eq_ok (h : makeDouble negative digits exponent left = .ok n)
    (other : List Char) : makeDouble negative digits exponent other = .ok n := by
  unfold makeDouble at h ⊢
  split at h
  · exact h
  · cases h

theorem map_pair_eq_ok {α : Type} {x : Except Fault α} {a : α} :
    x.map (·, rest) = .ok (a, left) ↔ x = .ok a ∧ rest = left := by
  cases x with
  | error fault => simp [Except.map]
  | ok b => simp [Except.map]

theorem readExponent_append (hrest : endsNumeral rest = true)
    (h : readExponent negative digits exponent text = .ok (n, left)) :
    readExponent negative digits exponent (text ++ rest) = .ok (n, left ++ rest) := by
  cases text with
  | nil => cases h
  | cons c text =>
    have hsign : dropSign (c :: (text ++ rest)) = dropSign (c :: text) ++ rest := by
      unfold dropSign
      split <;> simp_all
    have hhead : (c :: (text ++ rest)).head? = (c :: text).head? := rfl
    simp only [readExponent, List.cons_append, hsign, hhead] at h ⊢
    generalize (c :: text).head? = sign at h ⊢
    generalize dropSign (c :: text) = body at h ⊢
    cases body with
    | nil => cases h
    | cons d body =>
      simp only [List.cons_append, List.isEmpty_cons, List.head?_cons, Bool.false_eq_true,
        if_false] at h ⊢
      rw [← List.cons_append, spanDigits_append hrest, exponentDigits_append hrest]
      by_cases hd : isDigit d = true
      · simp only [Option.any_some, hd, not_true_eq_false, if_false] at h ⊢
        cases hshift : exponentDigits 0 (d :: body) with
        | small shift =>
          simp only [hshift] at h ⊢
          obtain ⟨hdouble, rfl⟩ := map_pair_eq_ok.mp h
          exact map_pair_eq_ok.mpr ⟨makeDouble_eq_ok hdouble _, rfl⟩
        | huge left' =>
          simp only [hshift] at h ⊢
          by_cases hlarge : digits ≠ 0 ∧ ¬sign = some '-'
          · rw [if_pos hlarge] at h
            cases h
          · rw [if_neg hlarge] at h ⊢
            cases h
            rfl
      · simp only [Option.any_some, hd, not_false_eq_true, if_true, Bool.false_eq_true] at h
        cases h

theorem readTail_append (hrest : endsNumeral rest = true)
    (h : readTail negative digits exponent text = .ok (n, left)) :
    readTail negative digits exponent (text ++ rest) = .ok (n, left ++ rest) := by
  unfold readTail at h
  split at h
  case h_1 body => exact readExponent_append hrest h
  case h_2 body => exact readExponent_append hrest h
  case h_3 he hE =>
    obtain ⟨hdouble, rfl⟩ := map_pair_eq_ok.mp h
    unfold readTail
    split
    case h_1 body hbody => exact absurd hbody (append_ne_cons hrest rfl he body)
    case h_2 body hbody => exact absurd hbody (append_ne_cons hrest rfl hE body)
    case h_3 => exact map_pair_eq_ok.mpr ⟨makeDouble_eq_ok hdouble _, rfl⟩

theorem readFraction_append (hrest : endsNumeral rest = true)
    (h : readFraction negative digits exponent text = .ok (n, left)) :
    readFraction negative digits exponent (text ++ rest) = .ok (n, left ++ rest) := by
  simp only [readFraction, spanDigits_append hrest] at h ⊢
  split at h
  case isTrue => cases h
  case isFalse hrun =>
    rw [if_neg hrun]
    exact readTail_append hrest h

theorem readRest_of_ne_point (h : ∀ body, text ≠ '.' :: body) :
    readRest negative digits dropped text =
      if dropped = 0 ∧ ¬text.head?.any (· ∈ ['e', 'E']) then
        .ok (makeInteger negative digits, text)
      else readTail negative digits dropped text := by
  unfold readRest
  split
  case h_1 body => exact absurd rfl (h body)
  case h_2 => rfl

theorem readRest_append (hrest : endsNumeral rest = true)
    (h : readRest negative digits dropped text = .ok (n, left)) :
    readRest negative digits dropped (text ++ rest) = .ok (n, left ++ rest) := by
  by_cases hpoint : ∃ body, text = '.' :: body
  · obtain ⟨body, rfl⟩ := hpoint
    exact readFraction_append hrest h
  · have hne : ∀ body, text ≠ '.' :: body := fun body hbody => hpoint ⟨body, hbody⟩
    have hhead : (text ++ rest).head?.any (· ∈ ['e', 'E']) = text.head?.any (· ∈ ['e', 'E']) := by
      cases text with
      | nil => exact (head?_of_endsNumeral hrest).2
      | cons c text => rfl
    rw [readRest_of_ne_point hne] at h
    rw [readRest_of_ne_point (append_ne_cons hrest rfl hne), hhead]
    by_cases hint : dropped = 0 ∧ ¬text.head?.any (· ∈ ['e', 'E'])
    · rw [if_pos hint] at h ⊢
      cases h
      rfl
    · rw [if_neg hint] at h ⊢
      exact readTail_append hrest h

theorem readUnsigned_append (hrest : endsNumeral rest = true)
    (h : readUnsigned negative text = .ok (n, left)) :
    readUnsigned negative (text ++ rest) = .ok (n, left ++ rest) := by
  cases text with
  | nil => cases h
  | cons c after =>
    by_cases hzero : c = '0'
    · subst hzero
      have hhead : (after ++ rest).head?.any isDigit = after.head?.any isDigit := by
        cases after with
        | nil => exact (head?_of_endsNumeral hrest).1
        | cons d after => rfl
      simp only [List.cons_append, readUnsigned, hhead] at h ⊢
      split at h
      case isTrue => cases h
      case isFalse hdigit =>
        rw [if_neg hdigit]
        exact readRest_append hrest h
    · rw [List.cons_append]
      unfold readUnsigned at h ⊢
      simp only [spanDigits_append hrest] at h ⊢
      split at h
      case isTrue => cases h
      case isFalse hdigit =>
        rw [if_neg hdigit]
        exact readRest_append hrest h

theorem readNumeral_of_ne_minus (h : ∀ body, text ≠ '-' :: body) :
    readNumeral text = readUnsigned false text := by
  unfold readNumeral
  split
  case h_1 body => exact absurd rfl (h body)
  case h_2 => rfl

/-- What a numeral denotes does not depend on what follows it. -/
theorem readNumeral_append (hrest : endsNumeral rest = true)
    (h : readNumeral text = .ok (n, left)) :
    readNumeral (text ++ rest) = .ok (n, left ++ rest) := by
  cases text with
  | nil => cases h
  | cons c body =>
    by_cases hminus : c = '-'
    · subst hminus
      exact readUnsigned_append hrest h
    · have hne : ∀ text other, c :: text ≠ '-' :: other :=
        fun text other hcons => hminus (List.cons.inj hcons).1
      rw [readNumeral_of_ne_minus (hne body)] at h
      rw [List.cons_append, readNumeral_of_ne_minus (hne (body ++ rest))]
      exact readUnsigned_append hrest h

end

/-! ## 3.  Integers -/

theorem isDigit_of_mem_toDigits {n : Nat} {c : Char} (h : c ∈ Nat.toDigits 10 n) :
    isDigit c = true := by
  have hdigit : c.isDigit = true := Nat.isDigit_of_mem_toDigits (by decide) (by decide) h
  simpa [isDigit, Char.isDigit, Char.le_def] using hdigit

/-- Only zero is written with a leading zero. -/
theorem head?_toDigits_ne_zero {n : Nat} (h : 0 < n) : (Nat.toDigits 10 n).head? ≠ some '0' := by
  induction n using Nat.strongRecOn with
  | ind n ih =>
    by_cases hn : n < 10
    · rw [Nat.toDigits_of_lt_base hn]
      intro hhead
      have hzero : n = 0 := Nat.digitChar_eq_zero.mp (Option.some.inj hhead)
      omega
    · rw [Nat.toDigits_of_base_le (by decide) (by omega)]
      have hhead := ih (n / 10) (by omega) (by omega)
      cases hdigits : Nat.toDigits 10 (n / 10) with
      | nil => exact absurd hdigits Nat.toDigits_ne_nil
      | cons c run => rwa [hdigits] at hhead

theorem spanDigits_of_forall {run : List Char} (h : ∀ c ∈ run, isDigit c = true) :
    spanDigits run = (run, []) := by
  induction run with
  | nil => rfl
  | cons c run ih =>
    obtain ⟨htake, hdrop⟩ :=
      Prod.mk.inj (ih fun d hd => h d (List.mem_cons_of_mem _ hd))
    have hc : isDigit c = true := h c List.mem_cons_self
    simp [spanDigits, hc, htake, hdrop]

/-- Digits that come to less than the bound are all kept. -/
theorem gather_of_lt {number : Nat} {run : List Char}
    (h : Nat.ofDigitChars 10 run number < gatherBound) :
    gather number run = (Nat.ofDigitChars 10 run number, run.length, 0) := by
  induction run generalizing number with
  | nil => rw [Nat.ofDigitChars_nil]; rfl
  | cons c run ih =>
    rw [Nat.ofDigitChars_cons] at h ⊢
    change Nat.ofDigitChars 10 run (10 * number + digitValue c) < gatherBound at h
    have hle : 10 * number + digitValue c ≤
        Nat.ofDigitChars 10 run (10 * number + digitValue c) := by
      rw [Nat.ofDigitChars_eq_ofDigitChars_zero]
      have hpow : 1 ≤ 10 ^ run.length := Nat.one_le_pow _ _ (by decide)
      have := Nat.mul_le_mul_right (10 * number + digitValue c) hpow
      omega
    rw [gather, if_pos (Nat.lt_of_le_of_lt hle h), ih h]
    rfl

theorem readUnsigned_toDigits (negative : Bool) {n : Nat} (h : n < gatherBound) :
    readUnsigned negative (Nat.toDigits 10 n) = .ok (makeInteger negative n, []) := by
  by_cases hzero : n = 0
  · subst hzero
    rfl
  · have hvalue : Nat.ofDigitChars 10 (Nat.toDigits 10 n) 0 = n := Nat.ofDigitChars_ten_toDigits
    have hhead := head?_toDigits_ne_zero (Nat.pos_of_ne_zero hzero)
    have hdigits : ∀ c ∈ Nat.toDigits 10 n, isDigit c = true :=
      fun c hc => isDigit_of_mem_toDigits hc
    cases hchars : Nat.toDigits 10 n with
    | nil => exact absurd hchars Nat.toDigits_ne_nil
    | cons c run =>
      rw [hchars] at hvalue hhead hdigits
      rw [Nat.ofDigitChars_cons, Nat.mul_zero, Nat.zero_add] at hvalue
      have hspan : spanDigits run = (run, []) :=
        spanDigits_of_forall fun d hd => hdigits d (List.mem_cons_of_mem _ hd)
      have hgather : gather (digitValue c) run = (n, run.length, 0) := by
        have hrun : Nat.ofDigitChars 10 run (digitValue c) = n := hvalue
        rw [gather_of_lt (by rw [hrun]; exact h), hrun]
      unfold readUnsigned
      split
      case h_1 heq => cases heq
      case h_2 after heq => exact absurd (congrArg List.head? heq) hhead
      case h_3 d after hd heq =>
        obtain ⟨rfl, rfl⟩ := List.cons.inj heq
        have hc : isDigit c = true := hdigits c List.mem_cons_self
        simp only [hc, not_true_eq_false, if_false, hspan, hgather]
        rfl

theorem makeInteger_of_pos {n : Nat} (h : 0 < n) (hn : n ≤ Nat.pow 2 63) :
    makeInteger true n = .int (-n) := by
  rw [makeInteger, if_neg (by simp), if_pos ⟨h, hn⟩]

/-- Every integer that fits 64 bits reads back. -/
theorem readNumeral_int {i : Int} (h : (Number.int i).isProper = true) :
    readNumeral (Number.int i).toText.toList = .ok (.int i, []) := by
  rw [Number.isProper, Bool.and_eq_true, decide_eq_true_eq, decide_eq_true_eq] at h
  cases i with
  | ofNat n =>
    have hn : n < gatherBound := Int.ofNat_lt.mp h.2
    have hne : ∀ body, Nat.toDigits 10 n ≠ '-' :: body := by
      intro body hbody
      have hminus : isDigit '-' = true :=
        isDigit_of_mem_toDigits (hbody ▸ List.mem_cons_self)
      cases hminus
    have htext : (Number.int (Int.ofNat n)).toText.toList = Nat.toDigits 10 n :=
      String.toList_ofList
    rw [htext, readNumeral_of_ne_minus hne, readUnsigned_toDigits false hn]
    rfl
  | negSucc n =>
    have hn : n + 1 ≤ Nat.pow 2 63 := by
      have hlow := h.1
      generalize Nat.pow 2 63 = bound at hlow ⊢
      omega
    have hbound : n + 1 < gatherBound := Nat.lt_of_le_of_lt hn (by decide)
    have htext : (Number.int (Int.negSucc n)).toText.toList = '-' :: Nat.toDigits 10 (n + 1) := by
      show ("-" ++ Nat.repr (n + 1)).toList = _
      rw [String.toList_append, Nat.repr_eq_ofList_toDigits, String.toList_ofList,
        String.toList_ofList]
      rfl
    rw [htext, readNumeral, readUnsigned_toDigits true hbound,
      makeInteger_of_pos (Nat.succ_pos n) hn]
    rfl

/-! ## 4.  What is read fits 64 bits -/

section

variable {negative : Bool} {digits dropped : Nat} {exponent : Int} {text left : List Char}
  {n : Number}

theorem gather_lt {number : Nat} (h : number < gatherBound) (run : List Char) :
    (gather number run).1 < gatherBound := by
  induction run generalizing number with
  | nil => exact h
  | cons c run ih =>
    rw [gather]
    split
    case isTrue hbound => exact ih hbound
    case isFalse => exact h

theorem makeInteger_isProper (negative : Bool) (h : digits < gatherBound) :
    (makeInteger negative digits).isProper = true := by
  rw [makeInteger]
  split
  case isTrue =>
    rw [Number.isProper, Bool.and_eq_true, decide_eq_true_eq, decide_eq_true_eq]
    refine ⟨?_, Int.ofNat_lt.mpr h⟩
    exact Int.le_trans (Int.neg_nonpos_of_nonneg (Int.natCast_nonneg _)) (Int.natCast_nonneg _)
  case isFalse =>
    split
    case isTrue hdigits =>
      rw [Number.isProper, Bool.and_eq_true, decide_eq_true_eq, decide_eq_true_eq]
      refine ⟨Int.neg_le_neg (Int.ofNat_le.mpr hdigits.2), ?_⟩
      exact Int.lt_of_le_of_lt (Int.neg_nonpos_of_nonneg (Int.natCast_nonneg _)) (by decide)
    case isFalse => rfl

theorem makeDouble_isProper (h : makeDouble negative digits exponent left = .ok n) :
    n.isProper = true := by
  rw [makeDouble] at h
  split at h
  case h_1 => cases h; rfl
  case h_2 => cases h

theorem readExponent_isProper
    (h : readExponent negative digits exponent text = .ok (n, left)) : n.isProper = true := by
  simp only [readExponent] at h
  split at h
  case isTrue => cases h
  case isFalse =>
    split at h
    case isTrue => cases h
    case isFalse =>
      split at h
      case h_1 => exact makeDouble_isProper (map_pair_eq_ok.mp h).1
      case h_2 =>
        split at h
        case isTrue => cases h
        case isFalse => cases h; rfl

theorem readTail_isProper (h : readTail negative digits exponent text = .ok (n, left)) :
    n.isProper = true := by
  unfold readTail at h
  split at h
  case h_1 => exact readExponent_isProper h
  case h_2 => exact readExponent_isProper h
  case h_3 => exact makeDouble_isProper (map_pair_eq_ok.mp h).1

theorem readRest_isProper (hdigits : digits < gatherBound)
    (h : readRest negative digits dropped text = .ok (n, left)) : n.isProper = true := by
  unfold readRest at h
  split at h
  case h_1 body =>
    simp only [readFraction] at h
    split at h
    case isTrue => cases h
    case isFalse => exact readTail_isProper h
  case h_2 =>
    split at h
    case isTrue => cases h; exact makeInteger_isProper negative hdigits
    case isFalse => exact readTail_isProper h

theorem readUnsigned_isProper (h : readUnsigned negative text = .ok (n, left)) :
    n.isProper = true := by
  unfold readUnsigned at h
  split at h
  case h_1 => cases h
  case h_2 =>
    split at h
    case isTrue => cases h
    case isFalse => exact readRest_isProper (by decide) h
  case h_3 c after _ =>
    split at h
    case isTrue => cases h
    case isFalse hc =>
      refine readRest_isProper (gather_lt ?_ _) h
      have hle : digitValue c ≤ 9 := by
        rw [Decidable.not_not, isDigit, Bool.and_eq_true, decide_eq_true_eq,
          decide_eq_true_eq] at hc
        have hnine : c.toNat ≤ '9'.toNat := hc.2
        rw [digitValue]
        exact Nat.sub_le_sub_right hnine _
      exact Nat.lt_of_le_of_lt hle (by decide)

theorem readNumeral_isProper (h : readNumeral text = .ok (n, left)) : n.isProper = true := by
  unfold readNumeral at h
  split at h
  case h_1 => exact readUnsigned_isProper h
  case h_2 => exact readUnsigned_isProper h

end

/-! ## 5.  Numbers that read back -/

end GraphSearch.Json

namespace GraphSearch

/-- The text of the number is read as that number.  Nothing is asked of integers, which do
(`Json.readNumeral_int`). -/
def Number.readsBack : Number → Bool
  | .int _ => true
  | .float x =>
    match Json.readNumeral x.toText.toList with
    | .ok (n, []) => n = .float x
    | _ => false

theorem Number.readNumeral_toText {n : Number} (hproper : n.isProper = true)
    (h : n.readsBack = true) {rest : List Char} (hrest : Json.endsNumeral rest = true) :
    Json.readNumeral (n.toText.toList ++ rest) = .ok (n, rest) := by
  have hread : Json.readNumeral n.toText.toList = .ok (n, []) := by
    cases n with
    | int i => exact Json.readNumeral_int hproper
    | float x =>
      rw [readsBack] at h
      split at h
      case h_1 n heq =>
        obtain rfl : n = .float x := of_decide_eq_true h
        exact heq
      case h_2 => cases h
  rw [Json.readNumeral_append hrest hread, List.nil_append]

end GraphSearch
