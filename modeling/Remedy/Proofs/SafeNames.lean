import Remedy.Lock
import Remedy.Proofs.CommandLine.Faults
import Remedy.Proofs.Diagnostic.RoundTrip

/-!
# What runs and keys may be called

The names of runs and keys become directories, and the name of a run stands in the file of the lock.
`IsSafeName` says which names are fit for both: those that begin with an ASCII letter or digit and go
on with such, full stops, underscores and hyphens. Taking a snapshot and reading one back refuse all
other names and touch nothing for it, except that they take a line feed at the end of a safe name
for nothing (`Store.checks_names`). A name without one is accepted just if it is safe, and just then
does the lock's file say in a single line who holds it; a run whose name ends in a line feed gets its
snapshots, and two lines (`Store.snapshot_of_feed`).
-/

set_option autoImplicit false

namespace Remedy

/-- The name begins with an ASCII letter or digit and goes on with such and `.`, `_` and `-`. -/
structure IsSafeName (name : String) : Prop where
  head : ∃ c, name.toList.head? = some c ∧ c.isAlphanum = true
  chars : ∀ c ∈ name.toList, c.isAlphanum = true ∨ c ∈ ['.', '_', '-']

/-- What is accepted as a name: a safe one, or a safe one and a line feed. -/
def IsAccepted (name : String) : Prop :=
  IsSafeName name ∨ ∃ safe, IsSafeName safe ∧ name = safe ++ "\n"

/-- The letters and digits of ASCII lie in three ranges. -/
theorem isAlphanum_iff (c : Char) : c.isAlphanum = true ↔
    65 ≤ c.toNat ∧ c.toNat ≤ 90 ∨ 97 ≤ c.toNat ∧ c.toNat ≤ 122 ∨ 48 ≤ c.toNat ∧ c.toNat ≤ 57 := by
  have halphanum : c.isAlphanum = ((decide (65 ≤ c.val ∧ c.val ≤ 90) ||
      (decide (97 ≤ c.val) && decide (c.val ≤ 122))) ||
      (decide (48 ≤ c.val) && decide (c.val ≤ 57))) := rfl
  rw [halphanum]
  simp only [Bool.or_eq_true, Bool.and_eq_true, decide_eq_true_eq, UInt32.le_iff_toNat_le,
    or_assoc]
  rfl

theorem isNameStart_eq (c : Char) : isNameStart c = c.isAlphanum := by
  rw [Bool.eq_iff_iff]
  rw [isAlphanum_iff]
  simp only [isNameStart, isAsciiLetter, Bool.or_eq_true, Bool.and_eq_true, decide_eq_true_eq,
    Char.le_def, UInt32.le_iff_toNat_le]
  change (97 ≤ c.toNat ∧ c.toNat ≤ 122 ∨ 65 ≤ c.toNat ∧ c.toNat ≤ 90) ∨
    48 ≤ c.toNat ∧ c.toNat ≤ 57 ↔ _
  omega

theorem isNameChar_iff (c : Char) :
    isNameChar c = true ↔ c.isAlphanum = true ∨ c ∈ ['.', '_', '-'] := by
  simp [isNameChar, isNameStart_eq, or_assoc]

theorem isSafeName_iff {name : String} :
    IsSafeName name ↔ ∃ c rest, name.toList = c :: rest ∧ isNameStart c = true ∧
      ∀ c' ∈ rest, isNameChar c' = true := by
  constructor
  · intro h
    obtain ⟨c, hhead, hstart⟩ := h.head
    cases hname : name.toList with
    | nil =>
      rw [hname] at hhead
      cases hhead
    | cons c' rest =>
      rw [hname, List.head?_cons, Option.some_inj] at hhead
      refine ⟨c', rest, rfl, ?_, ?_⟩
      · rw [isNameStart_eq, hhead, hstart]
      · intro c'' hc
        apply (isNameChar_iff c'').mpr
        apply h.chars
        rw [hname]
        exact List.mem_cons_of_mem _ hc
  · rintro ⟨c, rest, hname, hstart, hrest⟩
    rw [isNameStart_eq] at hstart
    constructor
    · exact ⟨c, by rw [hname, List.head?_cons], hstart⟩
    · intro c' hc
      rw [hname] at hc
      rcases List.mem_cons.mp hc with rfl | hc
      · exact .inl hstart
      · exact (isNameChar_iff c').mp (hrest c' hc)

/-- All of a list, or all but a last element that is known, is taken off the front. -/
theorem dropWhile_eq_singleton_iff {p : Char → Bool} {x : Char} (hx : p x = false)
    (cs : List Char) :
    cs.dropWhile p = [x] ↔ ∃ front, (∀ c ∈ front, p c = true) ∧ cs = front ++ [x] := by
  constructor
  · intro h
    refine ⟨cs.takeWhile p, fun _ ↦ List.mem_takeWhile_imp, ?_⟩
    rw [← h, List.takeWhile_append_dropWhile]
  · rintro ⟨front, hfront, rfl⟩
    rw [List.dropWhile_append_of_pos hfront, List.dropWhile_cons_of_neg (by simp [hx])]

theorem isBackupName_iff {name : String} : isBackupName name = true ↔ IsAccepted name := by
  have hfeed : isNameChar '\n' = false := by decide
  have hcons : ∀ c rest, name.toList = c :: rest →
      (isBackupName name = true ↔ isNameStart c = true ∧
        ((∀ c' ∈ rest, isNameChar c' = true) ∨
          ∃ front, (∀ c' ∈ front, isNameChar c' = true) ∧ rest = front ++ ['\n'])) := by
    intro c rest hname
    rw [← dropWhile_eq_singleton_iff hfeed, ← List.dropWhile_eq_nil_iff]
    unfold isBackupName
    rw [hname]
    simp
  unfold IsAccepted
  constructor
  · intro h
    cases hname : name.toList with
    | nil =>
      unfold isBackupName at h
      rw [hname] at h
      cases h
    | cons c rest =>
      obtain ⟨hstart, hrest | ⟨front, hfront, rfl⟩⟩ := (hcons c rest hname).mp h
      · exact .inl (isSafeName_iff.mpr ⟨c, rest, hname, hstart, hrest⟩)
      · right
        refine ⟨String.ofList (c :: front), isSafeName_iff.mpr ⟨c, front, ?_, hstart, hfront⟩, ?_⟩
        · exact String.toList_ofList
        · apply String.toList_injective
          rw [hname, String.toList_append, String.toList_ofList]
          rfl
  · rintro (h | ⟨safe, h, rfl⟩)
    · obtain ⟨c, rest, hname, hstart, hrest⟩ := isSafeName_iff.mp h
      exact (hcons c rest hname).mpr ⟨hstart, .inl hrest⟩
    · obtain ⟨c, rest, hname, hstart, hrest⟩ := isSafeName_iff.mp h
      apply (hcons c (rest ++ ['\n']) ?_).mpr ⟨hstart, .inr ⟨rest, hrest, rfl⟩⟩
      rw [String.toList_append, hname]
      rfl

/-- Without a line feed at the end, just the safe names are accepted. -/
theorem isAccepted_iff {name : String} (h : name.toList.getLast? ≠ some '\n') :
    IsAccepted name ↔ IsSafeName name := by
  constructor
  · rintro (hsafe | ⟨safe, -, rfl⟩)
    · exact hsafe
    · rw [String.toList_append] at h
      exact absurd List.getLast?_concat h
  · exact .inl

/-! ### The line of the holder -/

/-- One line: characters of ASCII that can be printed, and a line feed behind them. -/
def IsLine (text : String) : Prop :=
  ∃ line : String, text = line ++ "\n" ∧ ∀ c ∈ line.toList, ' ' ≤ c ∧ c ≤ '~'

theorem printable_of_isAlphanum {c : Char} (h : c.isAlphanum = true) : ' ' ≤ c ∧ c ≤ '~' := by
  rw [isAlphanum_iff] at h
  change 32 ≤ c.toNat ∧ c.toNat ≤ 126
  omega

theorem IsSafeName.printable {name : String} (h : IsSafeName name) :
    ∀ c ∈ name.toList, ' ' ≤ c ∧ c ≤ '~' := by
  intro c hc
  rcases h.chars c hc with halphanum | hother
  · exact printable_of_isAlphanum halphanum
  · have hdecided : ∀ c ∈ ['.', '_', '-'], ' ' ≤ c ∧ c ≤ '~' :=
      Text.forall_mem_of_all (by decide)
    exact hdecided c hother

/-- With a name that is accepted, the lock's file says in one line who holds it just if the name is
safe. -/
theorem isLine_holderLine_iff {l : RunLock} (process : ℕ) (h : IsAccepted l.runId) :
    IsLine (l.holderLine process) ↔ IsSafeName l.runId := by
  have hline : l.holderLine process = ("pid=" ++ toString process ++ " run_id=" ++ l.runId) ++ "\n" :=
    rfl
  constructor
  · rintro ⟨line, htext, hprintable⟩
    have hlines : line = "pid=" ++ toString process ++ " run_id=" ++ l.runId := by
      rw [hline] at htext
      exact ((String.append_left_inj _).mp htext).symm
    apply (isAccepted_iff ?_).mp h
    intro hlast
    have hfeed : ' ' ≤ '\n' := by
      apply (hprintable '\n' ?_).1
      rw [hlines, String.toList_append]
      exact List.mem_append_right _ (List.mem_of_getLast? hlast)
    exact absurd hfeed (by decide)
  · intro hsafe
    refine ⟨_, hline, ?_⟩
    intro c hc
    have hprefix : ∀ c ∈ "pid=".toList, ' ' ≤ c ∧ c ≤ '~' := Text.forall_mem_of_all (by decide)
    have hmiddle : ∀ c ∈ " run_id=".toList, ' ' ≤ c ∧ c ≤ '~' := Text.forall_mem_of_all (by decide)
    simp only [String.toList_append, List.mem_append] at hc
    rcases hc with ((hc | hc) | hc) | hc
    · exact hprefix c hc
    · apply printable_of_isAlphanum
      have hdigit : c.isDigit = true := by
        have hrepr : (toString process).toList = Nat.toDigits 10 process := Nat.toList_repr
        rw [hrepr] at hc
        exact Nat.isDigit_of_mem_toDigits (by decide) (by decide) hc
      rw [Char.isAlphanum, hdigit, Bool.or_true]
    · exact hmiddle c hc
    · exact hsafe.printable c hc

namespace Store

/-! ### Snapshots and their names -/

/-- A snapshot is refused for a name. -/
def Refuses {α : Type} (act : Act α) (w : World) (label name : String) : Prop :=
  (act w).1 = .error (.backup (.invalidName label name))

/-- The names of the run and the key are checked, in this order, before anything is done. -/
structure Checks {α : Type} (act : Act α) (w : World) (runId key : String) : Prop where
  run : Refuses act w "run id" runId ↔ ¬ IsAccepted runId
  key : IsAccepted runId → (Refuses act w "key" key ↔ ¬ IsAccepted key)
  untouched : ∀ label name, Refuses act w label name → (act w).2 = w

variable {α : Type} {runId key : String} {w : World}

theorem checks_of {rest : Act α}
    (hrest : IsAccepted runId → IsAccepted key → ∀ label name,
      ¬ Refuses (checkNames runId key >>= fun _ ↦ rest) w label name) :
    Checks (checkNames runId key >>= fun _ ↦ rest) w runId key := by
  have hrun : ¬ IsAccepted runId → (checkNames runId key >>= fun _ ↦ rest) w =
      (.error (.backup (.invalidName "run id" runId)), w) := by
    intro h
    rw [← isBackupName_iff, Bool.not_eq_true] at h
    unfold checkNames
    rw [h]
    rfl
  have hkey : IsAccepted runId → ¬ IsAccepted key → (checkNames runId key >>= fun _ ↦ rest) w =
      (.error (.backup (.invalidName "key" key)), w) := by
    intro h h'
    rw [← isBackupName_iff] at h
    rw [← isBackupName_iff, Bool.not_eq_true] at h'
    unfold checkNames
    rw [h, h']
    rfl
  generalize (checkNames runId key >>= fun _ ↦ rest) = act at *
  constructor
  · constructor
    · intro hrefuses haccepted
      by_cases hkeyed : IsAccepted key
      · exact hrest haccepted hkeyed _ _ hrefuses
      · rw [Refuses, hkey haccepted hkeyed] at hrefuses
        simp at hrefuses
    · intro h
      rw [Refuses, hrun h]
  · intro haccepted
    constructor
    · exact fun hrefuses hkeyed ↦ hrest haccepted hkeyed _ _ hrefuses
    · intro h
      rw [Refuses, hkey haccepted h]
  · intro label name hrefuses
    by_cases haccepted : IsAccepted runId
    · by_cases hkeyed : IsAccepted key
      · exact absurd hrefuses (hrest haccepted hkeyed label name)
      · rw [hkey haccepted hkeyed]
    · rw [hrun haccepted]

theorem snapshot_takes (s : Store) (files : List Path) (hrunId : IsAccepted runId)
    (hkey : IsAccepted key) (label name : String) :
    ¬ Refuses (s.snapshot runId key files) w label name := by
  have hnames : isBackupName runId = true ∧ isBackupName key = true :=
    ⟨isBackupName_iff.mpr hrunId, isBackupName_iff.mpr hkey⟩
  intro hrefuses
  have hblames := s.ends_snapshot_blames runId key files w
  unfold Refuses at hrefuses
  unfold Ends at hblames
  generalize s.snapshot runId key files w = result at hrefuses hblames
  obtain ⟨outcome, w'⟩ := result
  obtain rfl : outcome = _ := hrefuses
  rcases hblames with hordinary | ⟨cause, hcause, hblames⟩
  · exact hordinary
  · cases hcause
    exact hblames hnames

theorem load_takes (s : Store) (hrunId : IsAccepted runId) (hkey : IsAccepted key)
    (label name : String) : ¬ Refuses (s.load runId key) w label name := by
  have hnames : isBackupName runId = true ∧ isBackupName key = true :=
    ⟨isBackupName_iff.mpr hrunId, isBackupName_iff.mpr hkey⟩
  have hraises : Raises (fun e ↦ ∀ label name, e ≠ .backup (.invalidName label name))
      (s.load runId key) := by
    apply raises_load_of
    · rintro e he label name rfl
      exact he
    · rintro cause hcause label name ⟨rfl⟩
      exact hcause trivial
    · exact fun hnot ↦ absurd hnames hnot
  intro hrefuses
  have hended := hraises w
  unfold Refuses at hrefuses
  unfold Ends at hended
  generalize s.load runId key w = result at hrefuses hended
  obtain ⟨outcome, w'⟩ := result
  obtain rfl : outcome = _ := hrefuses
  exact hended label name rfl

/-- What snapshots may be called, and what the lock's file then says. Both taking a snapshot and
reading one back refuse a name just if it is not accepted, and touch nothing for it. -/
theorem checks_names (s : Store) (runId key : String) (files : List Path) (w : World) :
    Checks (s.snapshot runId key files) w runId key ∧
      Checks (s.load runId key) w runId key ∧
      (∀ name, name.toList.getLast? ≠ some '\n' → (IsAccepted name ↔ IsSafeName name)) ∧
      ∀ (l : RunLock) (process : ℕ), IsAccepted l.runId →
        (IsLine (l.holderLine process) ↔ IsSafeName l.runId) := by
  refine ⟨?_, ?_, fun _ ↦ isAccepted_iff, fun _ process ↦ isLine_holderLine_iff process⟩
  · exact checks_of (s.snapshot_takes files)
  · exact checks_of s.load_takes

/-- A safe name with a line feed behind it is not safe, but a run of this name gets its snapshot,
and two lines in the lock's file. -/
theorem snapshot_of_feed :
    let taken := sampleStore.snapshot "r\n" "run" [] sampleWorld
    ¬ IsSafeName "r\n" ∧ taken.1.toOption.isSome = true ∧
      (sampleStore.load "r\n" "run" taken.2).1.toOption.isSome = true ∧
      ¬ IsLine ((⟨.ofString "lock", "r\n", 0, 0⟩ : RunLock).holderLine 7) := by
  have hfeed : ¬ IsSafeName "r\n" := by
    intro h
    exact absurd (h.chars '\n' (by decide)) (by decide)
  have haccepted : IsAccepted "r\n" := isBackupName_iff.mp (by decide)
  refine ⟨hfeed, ?_, ?_, mt (isLine_holderLine_iff 7 haccepted).mp hfeed⟩
  · decide +kernel
  · decide +kernel

end Store

end Remedy
