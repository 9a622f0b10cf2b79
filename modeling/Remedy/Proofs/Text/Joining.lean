import Mathlib.Tactic.SplitIfs
import Remedy.Proofs.Text.Lines
import Remedy.Text.Utf8

/-!
# Texts that are put together

What counts of the lines of a text is what is left when they are stripped and the blank ones are
left out (`solid`). For that it makes no difference that a carriage return and a line feed are one
break: there is a line between each two breaks (`solid_splitLines`). So texts with a break between
them have the lines of the one and then those of the other (`solid_append_break`), and it does not
matter how lines end (`solid_endLines`).

Bytes that are read leniently can be cut at any byte that is a character by itself
(`decodeFrom_append_ascii`): a sequence that is not complete in front of such a byte is ill-formed,
and as long as it would be at the end.
-/

set_option autoImplicit false

namespace Remedy.Text

/-! ### Lines -/

/-- What is left of lines when they are stripped and the blank ones are left out. -/
def solid (lines : List (List Char)) : List (List Char) := (lines.map strip).filter (!·.isEmpty)

theorem solid_append (xs ys : List (List Char)) : solid (xs ++ ys) = solid xs ++ solid ys := by
  simp [solid]

theorem solid_cons (x : List Char) (ys : List (List Char)) :
    solid (x :: ys) = solid [x] ++ solid ys :=
  solid_append [x] ys

/-- Of the lines of a text those count that lie between its breaks. -/
theorem solid_splitLines (cs : List Char) : solid (splitLines cs) = solid (cs.splitOnP isBreak) := by
  have hfrom : ∀ line : List Char, (∀ c ∈ line, isBreak c = false) →
      solid (splitLinesFrom line cs) = solid ((line.reverse ++ cs).splitOnP isBreak) := by
    intro line hline
    have hcut : ∀ (line : List Char) {c : Char} (rest : List Char),
        (∀ c ∈ line, isBreak c = false) → isBreak c = true →
        solid ((line.reverse ++ c :: rest).splitOnP isBreak) =
          solid [line.reverse] ++ solid (rest.splitOnP isBreak) := by
      intro line c rest hline hc
      rw [List.splitOnP_append_cons_of_forall_mem (by simpa using hline) _ hc, solid_cons]
    fun_induction splitLinesFrom line cs with
    | case1 line hempty => rw [List.isEmpty_iff.mp hempty]; rfl
    | case2 line hne => rw [List.append_nil, List.splitOnP_eq_singleton (by simpa using hline)]
    | case3 line rest ih =>
      -- Between the two halves of the break there is a line, but it is blank.
      have hsecond : solid (('\n' :: rest).splitOnP isBreak) = solid (rest.splitOnP isBreak) :=
        hcut [] rest (by simp) (by decide)
      rw [hcut line _ hline (by decide), hsecond, solid_cons, ih (by simp)]
      rfl
    | case4 line c rest hcrlf hbreak ih =>
      rw [hcut line _ hline hbreak, solid_cons, ih (by simp)]
      rfl
    | case5 line c rest hcrlf hbreak ih =>
      have hc : isBreak c = false := by simpa using hbreak
      rw [ih (List.forall_mem_cons.mpr ⟨hc, hline⟩)]
      simp
  exact hfrom [] (by simp)

theorem solid_append_break (a b : List Char) {c : Char} (hc : isBreak c = true) :
    solid (splitLines (a ++ c :: b)) = solid (splitLines a) ++ solid (splitLines b) := by
  simp only [solid_splitLines, List.splitOnP_append_cons _ _ hc, solid_append]

/-- How a line may end. -/
inductive Ending where
  | lineFeed
  | carriageReturn
  | both
  deriving DecidableEq, Repr

def Ending.chars : Ending → List Char
  | .lineFeed => ['\n']
  | .carriageReturn => ['\r']
  | .both => ['\r', '\n']

/-- Lines that have been ended, each in its way. -/
def endLines (rows : List (List Char × Ending)) : List Char := rows.flatMap fun r ↦ r.1 ++ r.2.chars

theorem solid_append_ending (a b : List Char) (e : Ending) :
    solid (splitLines (a ++ e.chars ++ b)) = solid (splitLines a) ++ solid (splitLines b) := by
  have hbreak : ∀ (a b : List Char) (c : Char), isBreak c = true →
      solid (splitLines (a ++ [c] ++ b)) = solid (splitLines a) ++ solid (splitLines b) := by
    intro a b c hc
    rw [List.append_assoc, List.singleton_append, solid_append_break a b hc]
  cases e with
  | lineFeed => exact hbreak a b _ (by decide)
  | carriageReturn => exact hbreak a b _ (by decide)
  | both =>
    have hchars : a ++ Ending.both.chars ++ b = a ++ ['\r'] ++ ([] ++ ['\n'] ++ b) := by
      simp [Ending.chars]
    rw [hchars, hbreak a _ _ (by decide), hbreak [] b _ (by decide)]
    rfl

/-- However lines end, it is what is on them that counts. -/
theorem solid_endLines (rows : List (List Char × Ending)) (last : List Char) :
    solid (splitLines (endLines rows ++ last)) =
      (rows.flatMap fun r ↦ solid (splitLines r.1)) ++ solid (splitLines last) := by
  induction rows with
  | nil => rfl
  | cons row rest ih =>
    obtain ⟨line, e⟩ := row
    have hrest : endLines ((line, e) :: rest) ++ last = line ++ e.chars ++ (endLines rest ++ last) := by
      simp [endLines]
    rw [hrest, solid_append_ending, ih]
    simp

/-! ### Bytes -/

/-- The character that is put for what stands in front. -/
def Utf8Head.shown : Utf8Head → Char
  | .char c _ => c
  | .flaw _ _ => replacement

theorem decodeFrom_zero_cons (b : UInt8) (rest : Bytes) :
    decodeFrom 0 (b :: rest) =
      (readChar b rest).shown :: decodeFrom ((readChar b rest).size - 1) rest := by
  rw [decodeFrom]
  cases readChar b rest <;> rfl

theorem isContinuation_of_lt {b : UInt8} (h : b < 0x80) : isContinuation b = false := by
  have hlt : b.toNat < 128 := UInt8.lt_iff_toNat_lt.mp h
  simp only [isContinuation, beq_eq_false_iff_ne]
  omega

theorem admitsSecond_of_lt {b : UInt8} (h : b < 0x80) (first : UInt8) :
    admitsSecond first b = false := by
  simp [admitsSecond, isContinuation_of_lt h]

/-- A byte that is a character by itself ends what stands in front of it as the end would, and is
not part of it. -/
theorem readChar_append_ascii {b : UInt8} (hb : b < 0x80) (first : UInt8) (x y : Bytes) :
    (readChar first (x ++ b :: y)).shown = (readChar first x).shown ∧
      (readChar first (x ++ b :: y)).size = (readChar first x).size ∧
      (readChar first x).size ≤ x.length + 1 := by
  have hcontinuation := isContinuation_of_lt hb
  have hsecond := admitsSecond_of_lt hb first
  -- No more than three bytes are looked at behind the first one.
  rcases x with _ | ⟨p, _ | ⟨q, _ | ⟨r, x⟩⟩⟩ <;>
    simp only [readChar, List.nil_append, List.cons_append, hcontinuation, hsecond,
      Bool.false_eq_true, if_false] <;>
    split_ifs <;> simp [Utf8Head.shown, Utf8Head.size]

theorem decodeFrom_append_ascii {b : UInt8} (hb : b < 0x80) (y : Bytes) {skip : Nat} {x : Bytes}
    (hskip : skip ≤ x.length) :
    decodeFrom skip (x ++ b :: y) =
      decodeFrom skip x ++ Char.ofNat b.toNat :: decodeFrom 0 y := by
  induction x generalizing skip with
  | nil =>
    obtain rfl : skip = 0 := by simpa using hskip
    have hhead : readChar b y = .char (Char.ofNat b.toNat) 1 := by
      rw [readChar.eq_def, if_pos hb]
    rw [List.nil_append, decodeFrom_zero_cons, hhead]
    rfl
  | cons first x ih =>
    cases skip with
    | succ n => exact ih (by simpa using hskip)
    | zero =>
      obtain ⟨hshown, hsize, hle⟩ := readChar_append_ascii hb first x y
      rw [List.cons_append, decodeFrom_zero_cons, decodeFrom_zero_cons, hshown, hsize, ih (by omega)]
      rfl

/-- Bytes are read as no more characters than there are bytes. -/
theorem length_decodeFrom_le (skip : ℕ) (x : Bytes) : (decodeFrom skip x).length ≤ x.length := by
  induction x generalizing skip with
  | nil => simp [decodeFrom]
  | cons first x ih =>
    cases skip with
    | succ n => exact (ih n).trans (Nat.le_succ _)
    | zero =>
      rw [decodeFrom_zero_cons]
      exact Nat.succ_le_succ (ih _)

theorem decode_append_ascii {b : UInt8} (hb : b < 0x80) (x y : Bytes) :
    (decode (x ++ b :: y)).toList = (decode x).toList ++ Char.ofNat b.toNat :: (decode y).toList := by
  simp only [decode, String.toList_ofList]
  exact decodeFrom_append_ascii hb y (Nat.zero_le _)

end Remedy.Text
