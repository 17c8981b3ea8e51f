import GraphSearch.Json.Printer
import GraphSearch.Proofs.Json.Reader
/-!
# String literals read back

A character is written as itself or as an escape, and either is read as that character and
nothing more (`Reads.escape`).  A text that is quoted is therefore read as it was
(`reads_quoted`).
-/

namespace GraphSearch.Json

open Results

variable {text rest : List Char} {chars : List Char}

/-! ## 1.  One character -/

theorem Reads.plain {c : Char} (hquote : c ≠ '"') (hslash : c ≠ '\\') (hc : ¬c.toNat < 0x20)
    (h : Reads readChars text chars rest) : Reads readChars (c :: text) (c :: chars) rest := by
  obtain ⟨taken, h, rfl, rfl⟩ := h
  refine ⟨(taken.map (c :: ·)).past c, ?_, rfl, rfl⟩
  rw [readChars]
  · rw [if_neg hc]
    exact bind_eq_ok.mpr ⟨taken, h, rfl⟩
  · exact hquote
  · exact hslash

theorem Reads.escaped {c : Char} {middle : List Char} (hc : Reads readEscape text c middle)
    (h : Reads readChars middle chars rest) :
    Reads readChars ('\\' :: text) (c :: chars) rest := by
  obtain ⟨head, hhead, rfl, rfl⟩ := hc
  obtain ⟨tail, htail, rfl, rfl⟩ := h
  refine ⟨⟨head.value :: tail.value, tail.rest, Nat.lt_trans tail.shorter
    (Nat.lt_succ_of_lt head.shorter)⟩, ?_, rfl, rfl⟩
  rw [readChars]
  exact bind_eq_ok.mpr ⟨head, hhead, bind_eq_ok.mpr ⟨tail, htail, rfl⟩⟩

theorem hexFour?_hexDigit : ∀ n < 0x20,
    hexFour? '0' '0' (hexDigit (n / 16)) (hexDigit (n % 16)) = some n := by
  decide

/-- A control character is below the surrogates, so its four digits are all of its escape. -/
theorem reads_hexEscape {c : Char} (hc : c.toNat < 0x20) :
    Reads readEscape
      ('u' :: '0' :: '0' :: hexDigit (c.toNat / 16) :: hexDigit (c.toNat % 16) :: text) c text := by
  have hhex : readHex ('0' :: '0' :: hexDigit (c.toNat / 16) :: hexDigit (c.toNat % 16) :: text) =
      .ok ⟨c.toNat, text, by simp only [List.length_cons]; omega⟩ := by
    simp only [readHex, hexFour?_hexDigit c.toNat hc]
  have htrailing : isTrailing c.toNat = false := by
    rw [isTrailing, Bool.and_eq_false_iff, decide_eq_false_iff_not]
    exact .inl (by omega)
  have hleading : isLeading c.toNat = false := by
    rw [isLeading, Bool.and_eq_false_iff, decide_eq_false_iff_not]
    exact .inl (by omega)
  have hunicode : readUnicode
      ('0' :: '0' :: hexDigit (c.toNat / 16) :: hexDigit (c.toNat % 16) :: text) =
        .ok ⟨Char.ofNat c.toNat, text, by simp only [List.length_cons]; omega⟩ := by
    refine bind_eq_ok.mpr ⟨_, hhex, ?_⟩
    simp only [htrailing, hleading, Bool.false_eq_true, if_false]
    rfl
  exact ⟨_, bind_eq_ok.mpr ⟨_, hunicode, rfl⟩, Char.ofNat_toNat c, rfl⟩

/-- A character is read back from the way it is written in a literal. -/
theorem Reads.escape (c : Char) (h : Reads readChars text chars rest) :
    Reads readChars ((escape c).toList ++ text) (c :: chars) rest := by
  unfold Json.escape
  split
  case h_8 hquote hslash _ _ _ _ _ =>
    split
    case isTrue hc =>
      rw [String.toList_append, String.toList_ofList, String.toList_ofList]
      exact (reads_hexEscape hc).escaped h
    case isFalse hc =>
      rw [Char.toString, String.toList_singleton]
      exact h.plain hquote hslash hc
  all_goals exact Reads.escaped ⟨_, rfl, rfl, rfl⟩ h

/-! ## 2.  The literal -/

theorem toList_quote (s : String) :
    (quote s).toList = '"' :: (s.toList.flatMap (fun c => (escape c).toList) ++ ['"']) := by
  rw [quote, String.toList_append, String.toList_append, String.toList_join, List.flatMap_map]
  rfl

/-- A text is read back from its literal. -/
theorem reads_quoted (s : String) : Reads readText
    (s.toList.flatMap (fun c => (escape c).toList) ++ '"' :: rest) s rest := by
  have hend : Reads readChars ('"' :: rest) [] rest := by
    refine ⟨⟨[], rest, Nat.lt_succ_self _⟩, ?_, rfl, rfl⟩
    rw [readChars]
  have hchars : ∀ cs : List Char, Reads readChars
      (cs.flatMap (fun c => (escape c).toList) ++ '"' :: rest) cs rest := by
    intro cs
    induction cs with
    | nil => exact hend
    | cons c cs ih =>
      rw [List.flatMap_cons, List.append_assoc]
      exact ih.escape c
  obtain ⟨taken, htaken, hvalue, hrest⟩ := hchars s.toList
  refine ⟨taken.map String.ofList, bind_eq_ok.mpr ⟨taken, htaken, rfl⟩, ?_, hrest⟩
  show String.ofList taken.value = s
  rw [hvalue, String.ofList_toList]

end GraphSearch.Json
