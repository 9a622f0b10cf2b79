import Mathlib.Data.Nat.Basic
import Mathlib.Tactic.Ring
import Remedy.Text.Blank
import Remedy.Text.Digit
import Remedy.Text.Utf8

/-!
# Texts of ASCII characters

A text of ASCII characters is encoded with one byte for each (`encode_of_ascii`), and what it is
encoded as is read as that text (`decodeStrict_encode`). A text without carriage returns is left as
it is when line breaks are made line feeds (`lineFeeds_eq_self`).

The decimal digits of a number write that number (`numeral_toDigits`), and a run of digits of any
script writes a number that takes no more decimal digits than the run has (`numeral_lt`).
-/

set_option autoImplicit false

namespace Remedy.Text

/-- What holds of each character of a text can be checked one by one. Where characters are known to
be finitely many, a bounded quantifier is decided by trying them all, which takes too long. -/
theorem forall_mem_of_all {P : Char → Prop} [DecidablePred P] {cs : List Char}
    (h : cs.all (fun c ↦ decide (P c)) = true) : ∀ c ∈ cs, P c :=
  fun c hc ↦ of_decide_eq_true (List.all_eq_true.mp h c hc)

theorem utf8EncodeChar_of_ascii {c : Char} (h : c.toNat < 0x80) :
    String.utf8EncodeChar c = [UInt8.ofNat c.toNat] := by
  have hle : c.val.toNat ≤ 0x7F := Nat.le_of_lt_succ h
  rw [String.utf8EncodeChar, if_pos hle]
  rfl

theorem encode_of_ascii {s : String} (h : ∀ c ∈ s.toList, c.toNat < 0x80) :
    encode s = s.toList.map fun c ↦ UInt8.ofNat c.toNat := by
  unfold encode
  revert h
  induction s.toList with
  | nil => exact fun _ ↦ rfl
  | cons c cs ih =>
    intro h
    obtain ⟨hc, hcs⟩ := List.forall_mem_cons.mp h
    rw [List.flatMap_cons, utf8EncodeChar_of_ascii hc, ih hcs]
    rfl

theorem ofNat_toNat_byte {c : Char} (h : c.toNat < 0x80) :
    Char.ofNat (UInt8.ofNat c.toNat).toNat = c := by
  rw [UInt8.toNat_ofNat_of_lt' (by simp [UInt8.size]; omega), Char.ofNat_toNat]

/-- Each byte of an ASCII text is the number of its character. -/
theorem map_encode {s : String} (h : ∀ c ∈ s.toList, c.toNat < 0x80) :
    ((encode s).map fun b ↦ Char.ofNat b.toNat) = s.toList := by
  rw [encode_of_ascii h, List.map_map]
  exact (List.map_congr_left fun c hc ↦ ofNat_toNat_byte (h c hc)).trans (List.map_id _)

theorem decodeStrict_encode {s : String} (h : ∀ c ∈ s.toList, c.toNat < 0x80) :
    decodeStrict (encode s) = .ok s := by
  have hfrom : ∀ (cs done : List Char) (position : Nat), (∀ c ∈ cs, c.toNat < 0x80) →
      decodeStrictFrom position 0 done (cs.map fun c ↦ UInt8.ofNat c.toNat) =
        .ok (String.ofList (done.reverse ++ cs)) := by
    intro cs
    induction cs with
    | nil =>
      intro done position _
      simp [decodeStrictFrom]
    | cons c cs ih =>
      intro done position hcs
      obtain ⟨hc, hrest⟩ := List.forall_mem_cons.mp hcs
      have hbyte : UInt8.ofNat c.toNat < 0x80 := by
        rw [UInt8.lt_iff_toNat_lt, UInt8.toNat_ofNat_of_lt' (by simp [UInt8.size]; omega)]
        exact hc
      rw [List.map_cons, decodeStrictFrom, readChar.eq_def, if_pos hbyte]
      dsimp only
      rw [ofNat_toNat_byte hc, ih _ _ hrest]
      simp
  rw [decodeStrict, encode_of_ascii h, hfrom _ _ _ h]
  simp

theorem lineFeeds_eq_self {cs : List Char} (h : '\r' ∉ cs) : lineFeeds cs = cs := by
  induction cs with
  | nil => rfl
  | cons c cs ih =>
    obtain ⟨hc, hcs⟩ := not_or.mp (mt List.mem_cons.mpr h)
    rw [lineFeeds, ih hcs]
    · rintro rest rfl
      exact absurd rfl hc
    · rintro rfl
      exact absurd rfl hc

/-! ### Numbers and the digits that write them -/

theorem digitValue?_of_isDigit {c : Char} (h : c.isDigit = true) :
    digitValue? c = some (c.toNat - 48) := by
  simp only [Char.isDigit, Bool.and_eq_true, decide_eq_true_eq] at h
  obtain ⟨hlow, hhigh⟩ : 48 ≤ c.toNat ∧ c.toNat ≤ 57 := h
  have hascii : c.toNat < 0x80 := by omega
  rw [digitValue?, if_pos hascii, if_pos ⟨hlow, hhigh⟩]

theorem isDigit_of_mem_toDigits {n : Nat} {c : Char} (h : c ∈ Nat.toDigits 10 n) :
    isDigit c = true := by
  rw [isDigit, digitValue?_of_isDigit (Nat.isDigit_of_mem_toDigits (by decide) (by decide) h)]
  rfl

theorem foldl_digitValue_of_isDigit (ds : List Char) (h : ∀ c ∈ ds, c.isDigit = true)
    (start : Nat) :
    ds.foldl (fun n c ↦ 10 * n + (digitValue? c).getD 0) start = Nat.ofDigitChars 10 ds start := by
  induction ds generalizing start with
  | nil => rfl
  | cons c ds ih =>
    rw [List.foldl_cons, digitValue?_of_isDigit (h c List.mem_cons_self),
      ih fun c hc ↦ h c (List.mem_cons_of_mem _ hc)]
    rfl

theorem numeral_toDigits (n : Nat) : numeral (Nat.toDigits 10 n) = n := by
  rw [numeral, foldl_digitValue_of_isDigit _ fun c hc ↦
    Nat.isDigit_of_mem_toDigits (by decide) (by decide) hc]
  exact Nat.ofDigitChars_ten_toDigits

theorem numeral_lt (ds : List Char) : numeral ds < 10 ^ ds.length := by
  have hfold : ∀ (ds : List Char) (start : Nat),
      ds.foldl (fun n c ↦ 10 * n + (digitValue? c).getD 0) start <
        (start + 1) * 10 ^ ds.length := by
    intro ds
    induction ds with
    | nil => simp
    | cons c ds ih =>
      intro start
      have hdigit : (digitValue? c).getD 0 < 10 := by
        cases hc : digitValue? c with
        | none => decide
        | some d => exact digitValue?_lt hc
      rw [List.foldl_cons, List.length_cons]
      calc ds.foldl _ (10 * start + (digitValue? c).getD 0)
          < (10 * start + (digitValue? c).getD 0 + 1) * 10 ^ ds.length := ih _
        _ ≤ 10 * (start + 1) * 10 ^ ds.length := Nat.mul_le_mul_right _ (by omega)
        _ = (start + 1) * 10 ^ (ds.length + 1) := by ring
  simpa [numeral] using hfold ds 0

end Remedy.Text
