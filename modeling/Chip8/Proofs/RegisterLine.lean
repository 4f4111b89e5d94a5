import Chip8.State.Registers

/-!
# The register line can be read back

Numerals on the register line have a least width and no greatest one, so where a field ends is not known in
advance.  But no field has a blank in it and one blank stands between two fields: split at its blanks, the
line gives its fields again, and a field gives its number.

* `ofHex`, `ofHex_hexDigits`     reading hexadecimal; zeros in front do not count (`ofHex_leftpad`);
* `hex_natCast_inj`, `decimal_natCast_inj`   a numeral stands for one number;
* `registerWords`                the fields of the line, labels included;
* `splitOn_registerLine`         the line, split at its blanks;
* `registerLine_eq_iff`          the main statement.
-/

namespace Chip8

namespace Numeral

/-! ### Hexadecimal numerals -/

/-- The value of a hexadecimal digit in capitals. -/
def hexValue (c : Char) : Nat := if c.isDigit then c.toNat - '0'.toNat else c.toNat - 'A'.toNat + 10

/-- The number that digits stand for. -/
def ofHex (digits : List Char) : Nat := digits.foldl (fun n c => 16 * n + hexValue c) 0

theorem ofHex_concat (digits : List Char) (c : Char) :
    ofHex (digits ++ [c]) = 16 * ofHex digits + hexValue c := by
  rw [ofHex, List.foldl_append]
  rfl

theorem hexDigits_eq (n : Nat) :
    hexDigits n = (if n < 16 then [] else hexDigits (n / 16)) ++ [(n % 16).digitChar.toUpper] := by
  rw [hexDigits, Nat.toDigits_eq_if (by decide)]
  split
  · rename_i h
    rw [Nat.mod_eq_of_lt h]
    rfl
  · exact List.map_append

theorem hexValue_digitChar : ∀ d < 16, hexValue d.digitChar.toUpper = d := by decide

theorem digitChar_ne_blank : ∀ d < 16, d.digitChar.toUpper ≠ ' ' := by decide

theorem ofHex_hexDigits (n : Nat) : ofHex (hexDigits n) = n := by
  induction n using Nat.strongRecOn with
  | ind n ih =>
    rw [hexDigits_eq, ofHex_concat, hexValue_digitChar _ (Nat.mod_lt n (by decide))]
    split
    · rename_i h
      rw [Nat.mod_eq_of_lt h]
      exact Nat.zero_add n
    · rename_i h
      rw [ih (n / 16) (by omega)]
      exact Nat.div_add_mod n 16

theorem blank_notMem_hexDigits (n : Nat) : ' ' ∉ hexDigits n := by
  induction n using Nat.strongRecOn with
  | ind n ih =>
    rw [hexDigits_eq, List.mem_append, List.mem_singleton]
    rintro (h | h)
    · split at h
      · exact List.not_mem_nil h
      · exact ih (n / 16) (by omega) h
    · exact digitChar_ne_blank _ (Nat.mod_lt n (by decide)) h.symm

/-- Zeros in front of a numeral do not count. -/
theorem ofHex_leftpad (width : Nat) (digits : List Char) :
    ofHex (digits.leftpad width '0') = ofHex digits := by
  rw [List.leftpad]
  induction width - digits.length with
  | zero => rfl
  | succ k ih => exact ih

theorem toList_hex (width n : Nat) : (hex width n).toList = (hexDigits n).leftpad width '0' := by
  rw [hex_natCast, String.toList_ofList]

theorem hex_natCast_inj {width m n : Nat} : hex width m = hex width n ↔ m = n := by
  constructor
  · intro h
    have hdigits : (hexDigits m).leftpad width '0' = (hexDigits n).leftpad width '0' := by
      rw [← toList_hex, ← toList_hex, h]
    have hvalue := congrArg ofHex hdigits
    rwa [ofHex_leftpad, ofHex_leftpad, ofHex_hexDigits, ofHex_hexDigits] at hvalue
  · rintro rfl
    rfl

theorem blank_notMem_hex (width n : Nat) : ' ' ∉ (hex width n).toList := by
  rw [toList_hex, List.leftpad, List.mem_append]
  rintro (h | h)
  · exact absurd (List.eq_of_mem_replicate h) (by decide)
  · exact blank_notMem_hexDigits n h

/-! ### Decimal numerals -/

theorem toList_decimal (n : Nat) : (decimal n).toList = Nat.toDigits 10 n := by
  rw [decimal, sign_of_nonneg (Int.natCast_nonneg n), String.toList_ofList]
  rfl

theorem decimal_natCast_inj {m n : Nat} : decimal m = decimal n ↔ m = n := by
  constructor
  · intro h
    have hdigits : Nat.toDigits 10 m = Nat.toDigits 10 n := by
      rw [← toList_decimal, ← toList_decimal, h]
    have hvalue := congrArg (Nat.ofDigitChars 10 · 0) hdigits
    simpa only [Nat.ofDigitChars_ten_toDigits] using hvalue
  · rintro rfl
    rfl

theorem blank_notMem_decimal (n : Nat) : ' ' ∉ (decimal n).toList := by
  rw [toList_decimal]
  intro h
  exact absurd (Nat.isDigit_of_mem_toDigits (by decide) (by decide) h) (by decide)

end Numeral

namespace State
open Numeral

/-- The fields of the register line. -/
def registerWords (s : State) : List String :=
  ["PC=" ++ hex 3 s.pc.toNat, "I=" ++ hex 3 s.index.toNat, "SP=" ++ decimal s.stack.depth,
    "DT=" ++ decimal s.delay.toNat, "ST=" ++ decimal s.sound.toNat, "|"] ++
    (List.finRange 16).map s.registerEntry

/-- A label is put in front of its numeral with a blank before it, which is the blank between two fields. -/
theorem registerLine_eq (s : State) : s.registerLine = " ".intercalate s.registerWords := by
  have hentries : (List.finRange 16).map s.registerEntry ≠ [] := List.cons_ne_nil _ _
  have hindex : " I=" = " " ++ "I=" := by decide
  have hdepth : " SP=" = " " ++ "SP=" := by decide
  have hdelay : " DT=" = " " ++ "DT=" := by decide
  have hsound : " ST=" = " " ++ "ST=" := by decide
  have hbar : " | " = " " ++ ("|" ++ " ") := by decide
  -- said in full, since the equation of so long a text is slow to come by
  show "PC=" ++ hex 3 s.pc.toNat ++ " I=" ++ hex 3 s.index.toNat ++ " SP=" ++ decimal s.stack.depth ++
      " DT=" ++ decimal s.delay.toNat ++ " ST=" ++ decimal s.sound.toNat ++ " | " ++
      " ".intercalate ((List.finRange 16).map s.registerEntry) =
    " ".intercalate (_ :: _ :: _ :: _ :: _ :: "|" :: (List.finRange 16).map s.registerEntry)
  simp only [String.intercalate_cons_cons, String.intercalate_cons_of_ne_nil hentries]
  rw [hindex, hdepth, hdelay, hsound, hbar]
  simp only [String.append_assoc]

theorem blank_notMem_registerEntry (s : State) (x : Fin 16) : ' ' ∉ (s.registerEntry x).toList := by
  simp [registerEntry, blank_notMem_hex]

theorem blank_notMem_registerWords (s : State) {word : String} (h : word ∈ s.registerWords) :
    ' ' ∉ word.toList := by
  obtain h | h := List.mem_append.mp h
  · simp only [List.mem_cons, List.not_mem_nil, or_false] at h
    obtain rfl | rfl | rfl | rfl | rfl | rfl := h <;>
      simp [blank_notMem_hex, blank_notMem_decimal]
  · obtain ⟨x, -, rfl⟩ := List.mem_map.mp h
    exact s.blank_notMem_registerEntry x

/-- Split at its blanks, the line gives its fields. -/
theorem splitOn_registerLine (s : State) :
    s.registerLine.toList.splitOn ' ' = s.registerWords.map String.toList := by
  rw [registerLine_eq, String.toList_intercalate]
  refine List.splitOn_intercalate ' ' (fun field hfield => ?_) (List.cons_ne_nil _ _)
  obtain ⟨word, hword, rfl⟩ := List.mem_map.mp hfield
  exact s.blank_notMem_registerWords hword

theorem registerWords_of_registerLine {s t : State} (h : s.registerLine = t.registerLine) :
    s.registerWords = t.registerWords := by
  have hfields : s.registerWords.map String.toList = t.registerWords.map String.toList := by
    rw [← splitOn_registerLine, ← splitOn_registerLine, h]
  exact (List.map_inj_right fun _ _ => String.toList_inj.mp).mp hfields

theorem registerEntry_inj {s t : State} {x : Fin 16} :
    s.registerEntry x = t.registerEntry x ↔ s.v.get x = t.v.get x := by
  rw [registerEntry, registerEntry, String.append_right_inj, hex_natCast_inj, UInt8.toNat_inj]

/-- The fields of two states are the same exactly if the numbers in them are. -/
theorem registerWords_eq_iff {s t : State} : s.registerWords = t.registerWords ↔
    s.pc = t.pc ∧ s.index = t.index ∧ s.stack.depth = t.stack.depth ∧ s.delay = t.delay ∧
      s.sound = t.sound ∧ ∀ x, s.v.get x = t.v.get x := by
  simp only [registerWords, List.cons_append, List.nil_append, List.cons.injEq,
    String.append_right_inj, hex_natCast_inj, decimal_natCast_inj, UInt16.toNat_inj, UInt8.toNat_inj,
    List.map_inj_left, List.mem_finRange, registerEntry_inj, true_and, forall_const]

/-- **The register line loses nothing.**  Two states have the same line exactly if they agree on the
program counter, the index, the call depth, both timers and all the registers. -/
theorem registerLine_eq_iff (s t : State) : s.registerLine = t.registerLine ↔
    s.pc = t.pc ∧ s.index = t.index ∧ s.stack.depth = t.stack.depth ∧ s.delay = t.delay ∧
      s.sound = t.sound ∧ s.v = t.v := by
  have hregisters : (∀ x, s.v.get x = t.v.get x) ↔ s.v = t.v :=
    ⟨fun h => Vector.ext fun i hi => h ⟨i, hi⟩, fun h x => by rw [h]⟩
  rw [← hregisters, ← registerWords_eq_iff]
  constructor
  · exact registerWords_of_registerLine
  · intro h
    rw [registerLine_eq, registerLine_eq, h]

end State

end Chip8
