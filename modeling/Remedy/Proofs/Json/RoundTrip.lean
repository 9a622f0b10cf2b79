import Remedy.Json.Printer
import Remedy.Json.Reader
import Remedy.Proofs.Text.Ascii

/-!
# Values that are printed and read again

What `Json.pretty` prints is read back by `Json.parse` (`parse_pretty`), for values without numbers
in which no object has two fields of one name (`Plain`). The reader may need one step for each value
and one for each member that it is in, which a bound by the length of the text covers.
-/

set_option autoImplicit false

namespace Remedy.Json

open Remedy.Text (forall_mem_of_all hexPadded hexDigit)

/-! ### Texts in quotes -/

theorem hexValue?_hexDigit : ∀ d < 16, hexValue? (hexDigit d) = some d := by decide

theorem hexUnit?_hexPadded {n : Nat} (h : n < 0x10000) : hexUnit? (hexPadded 4 n) = some n := by
  simp only [hexPadded, List.nil_append, List.cons_append, hexUnit?, hexValue?_hexDigit _
    (Nat.mod_lt _ (by decide : 0 < 16)), Option.bind_eq_bind, Option.bind_some, Option.pure_def,
    Option.some.injEq]
  omega

theorem length_hexPadded (places n : Nat) : (hexPadded places n).length = places := by
  induction places generalizing n with
  | zero => rfl
  | succ places ih => simp [hexPadded, ih]

section Strings

variable {left fuel : Nat} {done rest : List Char} {c : Char}

theorem take_hexPadded (n : Nat) : (hexPadded 4 n ++ rest).take 4 = hexPadded 4 n :=
  List.take_left' (length_hexPadded 4 n)

theorem drop_hexPadded (n : Nat) : (hexPadded 4 n ++ rest).drop 4 = rest :=
  List.drop_left' (length_hexPadded 4 n)

theorem lt_length_hexPadded (n : Nat) (hrest : rest ≠ []) : 4 < (hexPadded 4 n ++ rest).length := by
  have := List.length_pos_iff.mpr hrest
  rw [List.length_append, length_hexPadded]
  omega

theorem readString_unit {n : Nat} (h : n < 0x10000) (hrest : rest ≠ [])
    (hsurrogate : ¬ (0xD800 ≤ n ∧ n ≤ 0xDFFF)) :
    readString left (fuel + 1) done ('\\' :: 'u' :: (hexPadded 4 n ++ rest)) =
      readString left fuel (Char.ofNat n :: done) rest := by
  rw [readString]
  simp only [take_hexPadded, hexUnit?_hexPadded h, drop_hexPadded]
  rw [if_neg (by decide), if_neg (by decide), if_neg (by decide),
    if_neg (not_le.mpr (lt_length_hexPadded n hrest)), if_neg (by omega), if_neg (by omega)]

theorem readString_pair {high low : Nat} (hhigh : 0xD800 ≤ high ∧ high ≤ 0xDBFF)
    (hlow : 0xDC00 ≤ low ∧ low ≤ 0xDFFF) (hrest : rest ≠ []) :
    readString left (fuel + 1) done
        ('\\' :: 'u' :: (hexPadded 4 high ++ ('\\' :: 'u' :: (hexPadded 4 low ++ rest)))) =
      readString left fuel
        (Char.ofNat (0x10000 + (high - 0xD800) * 0x400 + (low - 0xDC00)) :: done) rest := by
  have hsecond : lowUnit? ('\\' :: 'u' :: (hexPadded 4 low ++ rest)) = some (low, rest) := by
    simp only [lowUnit?, take_hexPadded, hexUnit?_hexPadded (by omega : low < 0x10000),
      drop_hexPadded]
    rw [if_pos ⟨hlow.1, hlow.2, lt_length_hexPadded low hrest⟩]
  rw [readString]
  simp only [take_hexPadded, hexUnit?_hexPadded (by omega : high < 0x10000), drop_hexPadded,
    hsecond]
  rw [if_neg (by decide), if_neg (by decide), if_neg (by decide),
    if_neg (not_le.mpr (lt_length_hexPadded high (List.cons_ne_nil _ _))), if_pos hhigh]

theorem readString_escape {e : Char} (hu : e ≠ 'u') (he : escapeOf? e = some c) :
    readString left (fuel + 1) done ('\\' :: e :: rest) =
      readString left fuel (c :: done) rest := by
  rw [readString, if_neg (by decide), if_neg (by decide), if_neg (by decide), he]
  exact hu

theorem readString_plain (hquote : c ≠ '"') (hslash : c ≠ '\\') (hcontrol : 0x20 ≤ c.toNat) :
    readString left (fuel + 1) done (c :: rest) = readString left fuel (c :: done) rest := by
  rw [readString.eq_def]
  simp only [if_neg hquote, if_neg (Nat.not_lt.mpr hcontrol), if_pos hslash]

/-- What a character is written as is read as that character. -/
theorem readString_escapeChar (hrest : rest ≠ []) :
    readString left (fuel + 1) done (escapeChar c ++ rest) =
      readString left fuel (c :: done) rest := by
  unfold escapeChar
  split
  · subst c
    exact readString_escape (by decide) rfl
  split
  · subst c
    exact readString_escape (by decide) rfl
  split
  · subst c
    exact readString_escape (by decide) rfl
  split
  · subst c
    exact readString_escape (by decide) rfl
  split
  · subst c
    exact readString_escape (by decide) rfl
  split
  · subst c
    exact readString_escape (by decide) rfl
  split
  · subst c
    exact readString_escape (by decide) rfl
  split
  · rename_i hquote hslash _ _ _ _ _ hplain
    exact readString_plain hquote hslash hplain.1
  have hvalid : c.toNat < 0xD800 ∨ (0xDFFF < c.toNat ∧ c.toNat < 0x110000) := c.valid
  unfold units
  dsimp only
  split
  · rename_i hsmall
    simp only [List.flatMap_cons, List.flatMap_nil, List.append_nil, List.cons_append]
    rw [readString_unit hsmall hrest (by omega), Char.ofNat_toNat]
  · rename_i hlarge
    have hpoint : 0x10000 + (0xD800 + (c.toNat - 0x10000) / 0x400 - 0xD800) * 0x400 +
        (0xDC00 + (c.toNat - 0x10000) % 0x400 - 0xDC00) = c.toNat := by
      omega
    simp only [List.flatMap_cons, List.flatMap_nil, List.append_nil, List.cons_append,
      List.append_assoc]
    rw [readString_pair (by omega) (by omega) hrest, hpoint, Char.ofNat_toNat]

theorem escapeChar_ne_nil (c : Char) : escapeChar c ≠ [] := by
  have hunits : ∃ u, u ∈ units c := by
    simp only [units]
    split <;> simp
  unfold escapeChar
  split_ifs <;> simp [hunits]

theorem readString_escaped (cs : List Char) {fuel : Nat}
    (hfuel : (cs.flatMap escapeChar).length < fuel) :
    readString left fuel done (cs.flatMap escapeChar ++ '"' :: rest) =
      .ok (String.ofList (done.reverse ++ cs), rest) := by
  induction cs generalizing fuel done with
  | nil =>
    obtain ⟨fuel, rfl⟩ : ∃ fuel', fuel = fuel' + 1 := ⟨fuel - 1, by omega⟩
    simp [readString]
  | cons c cs ih =>
    have hlength := List.length_pos_iff.mpr (escapeChar_ne_nil c)
    rw [List.flatMap_cons, List.length_append] at hfuel
    obtain ⟨fuel, rfl⟩ : ∃ fuel', fuel = fuel' + 1 := ⟨fuel - 1, by omega⟩
    rw [List.flatMap_cons, List.append_assoc, readString_escapeChar (by simp),
      ih (by omega)]
    simp

end Strings

/-! ### Values -/

/-- Values without numbers in which no object has two fields of one name. -/
inductive Plain : Json → Prop
  | null : Plain .null
  | bool (b : Bool) : Plain (.bool b)
  | str (s : String) : Plain (.str s)
  | arr {items : List Json} (hitems : ∀ j ∈ items, Plain j) : Plain (.arr items)
  | obj {fields : List (String × Json)} (hnames : (fields.map (·.1)).Nodup)
      (hfields : ∀ f ∈ fields, Plain f.2) : Plain (.obj fields)

theorem insert_of_not_mem {α : Type} {key : String} (value : α) {done : List (String × α)}
    (h : key ∉ done.map (·.1)) : insert key value done = done ++ [(key, value)] := by
  induction done with
  | nil => rfl
  | cons entry rest ih =>
    obtain ⟨k, v⟩ := entry
    obtain ⟨hk, hrest⟩ := not_or.mp (mt List.mem_cons.mpr h)
    rw [insert, if_neg fun heq ↦ hk heq.symm, ih hrest, List.cons_append]

/-- A value begins here, and no white space is in front of it. -/
def Begins (cs : List Char) : Prop :=
  ∃ c rest, cs = c :: rest ∧ c ∈ ['n', 'f', 't', '"', '[', '\x7b']

theorem toList_escaped (s : String) :
    (escaped s).toList = '"' :: (s.toList.flatMap escapeChar ++ ['"']) := by
  simp [escaped]

theorem begins_prettyAt {j : Json} (hj : Plain j) (depth : Nat) (rest : List Char) :
    Begins ((prettyAt depth j).toList ++ rest) := by
  cases hj with
  | null => exact ⟨'n', "ull".toList ++ rest, by simp [prettyAt], by decide⟩
  | bool b =>
    cases b
    · exact ⟨'f', "alse".toList ++ rest, by simp [prettyAt], by decide⟩
    · exact ⟨'t', "rue".toList ++ rest, by simp [prettyAt], by decide⟩
  | str s => exact ⟨'"', _, by rw [prettyAt, toList_escaped]; rfl, by decide⟩
  | @arr items hitems =>
    cases items with
    | nil => exact ⟨'[', ']' :: rest, by simp [prettyAt], by decide⟩
    | cons j items => exact ⟨'[', _, by simp [prettyAt]; rfl, by decide⟩
  | @obj fields hnames hfields =>
    cases fields with
    | nil => exact ⟨'\x7b', '\x7d' :: rest, by simp [prettyAt], by decide⟩
    | cons f fields => exact ⟨'\x7b', _, by simp [prettyAt]; rfl, by decide⟩

theorem skipSpace_newline (depth : Nat) (cs : List Char) :
    skipSpace ((newline depth).toList ++ cs) = skipSpace cs := by
  have hblanks : ∀ n, skipSpace (List.replicate n ' ' ++ cs) = skipSpace cs := by
    intro n
    induction n with
    | zero => rfl
    | succ n ih => simpa [List.replicate_succ, skipSpace] using ih
  simpa [newline, skipSpace] using hblanks (2 * depth)

theorem skipSpace_cons {c : Char} (hc : c ∉ [' ', '\t', '\n', '\r']) (cs : List Char) :
    skipSpace (c :: cs) = c :: cs := by
  rw [skipSpace, if_neg (by simpa using hc)]

theorem Begins.skipSpace {cs : List Char} (h : Begins cs) : skipSpace cs = cs := by
  obtain ⟨c, rest, rfl, hc⟩ := h
  have hvisible : ∀ c ∈ ['n', 'f', 't', '"', '[', '\x7b'], c ∉ [' ', '\t', '\n', '\r'] :=
    forall_mem_of_all (by decide)
  exact skipSpace_cons (hvisible c hc) rest

/-- The value is read from what it is printed as, whatever follows. -/
def Readable (j : Json) : Prop :=
  ∀ depth fuel rest, 2 * (prettyAt depth j).toList.length ≤ fuel →
    readValue fuel ((prettyAt depth j).toList ++ rest) = .ok (j, rest)

theorem readItems_prettyItems {items : List Json} (hne : items ≠ [])
    (hitems : ∀ j ∈ items, Plain j ∧ Readable j) {depth depth' fuel : Nat} {done : List Json}
    {rest : List Char} (hfuel : 2 * (prettyItems depth items).toList.length + 1 ≤ fuel) :
    readItems fuel done (skipSpace ((prettyItems depth items).toList ++
        ((newline depth').toList ++ ']' :: rest))) =
      .ok (.arr (done.reverse ++ items), rest) := by
  have hcomma : ∀ cs, skipSpace (",".toList ++ cs) = ',' :: cs := skipSpace_cons (by decide)
  induction items generalizing fuel done with
  | nil => exact absurd rfl hne
  | cons j items ih =>
    obtain ⟨hplain, hread⟩ := hitems j List.mem_cons_self
    obtain ⟨fuel, rfl⟩ : ∃ fuel', fuel = fuel' + 1 := ⟨fuel - 1, by omega⟩
    cases items with
    | nil =>
      simp only [prettyItems, String.toList_append, List.length_append, List.append_assoc]
        at hfuel ⊢
      rw [skipSpace_newline, (begins_prettyAt hplain depth _).skipSpace, readItems,
        hread depth fuel _ (by omega)]
      simp only [skipSpace_newline]
      rw [skipSpace_cons (by decide)]
      simp
    | cons next items =>
      rw [prettyItems] at hfuel ⊢
      · simp only [String.toList_append, List.length_append, List.append_assoc] at hfuel ⊢
        rw [skipSpace_newline, (begins_prettyAt hplain depth _).skipSpace, readItems,
          hread depth fuel _ (by omega)]
        simp only [hcomma]
        have hlength : 0 < (newline depth).toList.length := by simp [newline]
        rw [ih (List.cons_ne_nil _ _) (fun j hj ↦ hitems j (List.mem_cons_of_mem _ hj)) (by omega)]
        simp
      · exact List.cons_ne_nil _ _
      · exact List.cons_ne_nil _ _

/-- One field is read, whatever follows it. -/
theorem readFields_field {name : String} {j : Json} (hplain : Plain j) (hread : Readable j)
    {depth fuel : Nat} (hfuel : 2 * (prettyAt depth j).toList.length ≤ fuel)
    (done : List (String × Json)) (rest : List Char) :
    readFields (fuel + 1) done ((escaped name).toList ++
        (": ".toList ++ ((prettyAt depth j).toList ++ rest))) =
      match skipSpace rest with
      | '\x7d' :: rest => .ok (.obj (insert name j done), rest)
      | ',' :: rest => readFields fuel (insert name j done) (skipSpace rest)
      | rest => stopAt .comma rest := by
  have hcolon : ∀ cs, skipSpace (": ".toList ++ cs) = ':' :: ' ' :: cs :=
    fun cs ↦ skipSpace_cons (by decide) (' ' :: cs)
  have hspace : ∀ cs, skipSpace (' ' :: cs) = skipSpace cs := fun cs ↦ by simp [skipSpace]
  have hfuel' : (name.toList.flatMap escapeChar).length <
      (name.toList.flatMap escapeChar ++ '"' :: (": ".toList ++
        ((prettyAt depth j).toList ++ rest))).length + 1 := by
    rw [List.length_append]
    omega
  rw [toList_escaped, List.cons_append, List.append_assoc, List.singleton_append, readFields,
    readString_escaped _ hfuel']
  simp only [hcolon]
  rw [hspace, (begins_prettyAt hplain depth rest).skipSpace, hread depth fuel _ hfuel]
  dsimp only
  generalize htext : String.ofList ([].reverse ++ name.toList) = text
  obtain rfl : text = name := by
    rw [← htext, List.reverse_nil, List.nil_append, String.ofList_toList]
  rfl

theorem readFields_prettyFields {fields : List (String × Json)} (hne : fields ≠ [])
    (hfields : ∀ f ∈ fields, Plain f.2 ∧ Readable f.2) {depth depth' fuel : Nat}
    {done : List (String × Json)} {rest : List Char}
    (hnames : ((done ++ fields).map (·.1)).Nodup)
    (hfuel : 2 * (prettyFields depth fields).toList.length + 1 ≤ fuel) :
    readFields fuel done (skipSpace ((prettyFields depth fields).toList ++
        ((newline depth').toList ++ '\x7d' :: rest))) =
      .ok (.obj (done ++ fields), rest) := by
  have hcomma : ∀ cs, skipSpace (",".toList ++ cs) = ',' :: cs := skipSpace_cons (by decide)
  have hquote : ∀ name cs, skipSpace ((escaped name).toList ++ cs) = (escaped name).toList ++ cs :=
    fun name cs ↦ by rw [toList_escaped, List.cons_append, skipSpace_cons (by decide)]
  induction fields generalizing fuel done with
  | nil => exact absurd rfl hne
  | cons f fields ih =>
    obtain ⟨name, j⟩ := f
    obtain ⟨hplain, hread⟩ : Plain j ∧ Readable j := hfields (name, j) List.mem_cons_self
    obtain ⟨fuel, rfl⟩ : ∃ fuel', fuel = fuel' + 1 := ⟨fuel - 1, by omega⟩
    have hnew : name ∉ done.map (·.1) := by
      rw [List.map_append, List.nodup_append] at hnames
      exact fun hmem ↦ hnames.2.2 _ hmem _ (by simp) rfl
    cases fields with
    | nil =>
      simp only [prettyFields, String.toList_append, List.length_append, List.append_assoc]
        at hfuel ⊢
      rw [skipSpace_newline, hquote, readFields_field hplain hread (by omega), skipSpace_newline,
        skipSpace_cons (by decide)]
      simp only [insert_of_not_mem j hnew]
    | cons next fields =>
      rw [prettyFields] at hfuel ⊢
      · simp only [String.toList_append, List.length_append, List.append_assoc] at hfuel ⊢
        have hlength : 0 < (newline depth).toList.length := by simp [newline]
        rw [skipSpace_newline, hquote, readFields_field hplain hread (by omega), hcomma]
        simp only [insert_of_not_mem j hnew]
        rw [ih (List.cons_ne_nil _ _) (fun f hf ↦ hfields f (List.mem_cons_of_mem _ hf))
          (by simpa using hnames) (by omega)]
        simp
      · exact List.cons_ne_nil _ _
      · exact List.cons_ne_nil _ _

theorem begins_prettyItems {items : List Json} (hne : items ≠ []) (hitems : ∀ j ∈ items, Plain j)
    (depth : Nat) (cs : List Char) :
    Begins (skipSpace ((prettyItems depth items).toList ++ cs)) := by
  have hfirst : ∀ j ∈ items, ∀ cs, Begins (skipSpace ((prettyAt depth j).toList ++ cs)) := by
    intro j hj cs
    have hbegins := begins_prettyAt (hitems j hj) depth cs
    rwa [hbegins.skipSpace]
  match items with
  | [] => exact absurd rfl hne
  | [j] =>
    simp only [prettyItems, String.toList_append, List.append_assoc, skipSpace_newline]
    exact hfirst j List.mem_cons_self _
  | j :: next :: items =>
    rw [prettyItems]
    · simp only [String.toList_append, List.append_assoc, skipSpace_newline]
      exact hfirst j List.mem_cons_self _
    · exact List.cons_ne_nil _ _

theorem begins_prettyFields {fields : List (String × Json)} (hne : fields ≠ []) (depth : Nat)
    (cs : List Char) : Begins (skipSpace ((prettyFields depth fields).toList ++ cs)) := by
  have hfirst : ∀ name cs, Begins (skipSpace ((escaped name).toList ++ cs)) := by
    intro name cs
    rw [toList_escaped, List.cons_append, skipSpace_cons (by decide)]
    exact ⟨'"', _, rfl, by decide⟩
  match fields with
  | [] => exact absurd rfl hne
  | [(name, j)] =>
    simp only [prettyFields, String.toList_append, List.append_assoc, skipSpace_newline]
    exact hfirst name _
  | (name, j) :: next :: fields =>
    rw [prettyFields]
    · simp only [String.toList_append, List.append_assoc, skipSpace_newline]
      exact hfirst name _
    · exact List.cons_ne_nil _ _

/-- After an opening bracket come the items, unless the bracket is closed at once. -/
theorem readValue_items {fuel : Nat} {cs : List Char} (h : Begins (skipSpace cs)) :
    readValue (fuel + 1) ('[' :: cs) = readItems fuel [] (skipSpace cs) := by
  obtain ⟨c, rest, hcs, hc⟩ := h
  rw [readValue, hcs]
  split
  · rename_i heq
    obtain rfl := (List.cons.inj heq).1
    exact absurd hc (by decide)
  · rfl

theorem readValue_fields {fuel : Nat} {cs : List Char} (h : Begins (skipSpace cs)) :
    readValue (fuel + 1) ('\x7b' :: cs) = readFields fuel [] (skipSpace cs) := by
  obtain ⟨c, rest, hcs, hc⟩ := h
  rw [readValue, hcs]
  split
  · rename_i heq
    obtain rfl := (List.cons.inj heq).1
    exact absurd hc (by decide)
  · rfl

theorem readable_of_succ {j : Json} (hj : Plain j)
    (h : ∀ depth fuel rest, 2 * (prettyAt depth j).toList.length ≤ fuel + 1 →
      readValue (fuel + 1) ((prettyAt depth j).toList ++ rest) = .ok (j, rest)) : Readable j := by
  intro depth fuel rest hfuel
  obtain ⟨c, cs, hcs, -⟩ := begins_prettyAt hj depth []
  have hlength := congrArg List.length hcs
  rw [List.append_nil, List.length_cons] at hlength
  obtain ⟨fuel, rfl⟩ : ∃ fuel', fuel = fuel' + 1 := ⟨fuel - 1, by omega⟩
  exact h depth fuel rest hfuel

/-- Every value is read from what it is printed as. -/
theorem Plain.readable {j : Json} (hj : Plain j) : Readable j := by
  induction hj with
  | null =>
    refine readable_of_succ .null fun depth fuel rest _ ↦ ?_
    rw [prettyAt]
    rfl
  | bool b =>
    refine readable_of_succ (.bool b) fun depth fuel rest _ ↦ ?_
    cases b <;> rw [prettyAt] <;> rfl
  | str s =>
    refine readable_of_succ (.str s) fun depth fuel rest _ ↦ ?_
    have hlength : (s.toList.flatMap escapeChar).length <
        (s.toList.flatMap escapeChar ++ '"' :: rest).length + 1 := by
      rw [List.length_append]
      omega
    rw [prettyAt, toList_escaped, List.cons_append, List.append_assoc, List.singleton_append,
      readValue, readString_escaped _ hlength]
    simp
  | @arr items hitems ih =>
    refine readable_of_succ (.arr hitems) fun depth fuel rest hfuel ↦ ?_
    by_cases hne : items = []
    · subst hne
      rw [prettyAt]
      rfl
    · rw [prettyAt] at hfuel ⊢
      · simp only [String.toList_append, List.append_assoc, List.length_append] at hfuel ⊢
        have hread : readItems fuel [] (skipSpace ((prettyItems (depth + 1) items).toList ++
            ((newline depth).toList ++ ']' :: rest))) = .ok (.arr ([].reverse ++ items), rest) :=
          readItems_prettyItems hne (fun j hj ↦ ⟨hitems j hj, ih j hj⟩) (by simp at hfuel; omega)
        exact (readValue_items (begins_prettyItems hne hitems (depth + 1) _)).trans hread
      · exact hne
      · exact hne
  | @obj fields hnames hfields ih =>
    refine readable_of_succ (.obj hnames hfields) fun depth fuel rest hfuel ↦ ?_
    by_cases hne : fields = []
    · subst hne
      rw [prettyAt]
      rfl
    · rw [prettyAt] at hfuel ⊢
      · simp only [String.toList_append, List.append_assoc, List.length_append] at hfuel ⊢
        have hread : readFields fuel [] (skipSpace ((prettyFields (depth + 1) fields).toList ++
            ((newline depth).toList ++ '\x7d' :: rest))) = .ok (.obj ([] ++ fields), rest) :=
          readFields_prettyFields hne (fun f hf ↦ ⟨hfields f hf, ih f hf⟩) hnames
            (by simp at hfuel; omega)
        exact (readValue_fields (begins_prettyFields hne (depth + 1) _)).trans hread
      · exact hne
      · exact hne

/-- What is printed is read back. -/
theorem parse_pretty {j : Json} (hj : Plain j) : parse (pretty j) = .ok j := by
  have hbegins : Begins (pretty j).toList := by
    have := begins_prettyAt hj 0 []
    rwa [List.append_nil] at this
  have hread : readValue (2 * (pretty j).toList.length + 2) (pretty j).toList = .ok (j, []) := by
    have := hj.readable 0 (2 * (pretty j).toList.length + 2) [] (by simp [pretty])
    rwa [List.append_nil] at this
  have hall : readAll (pretty j).toList = .ok j := by
    unfold readAll
    split
    · rename_i heq
      obtain ⟨c, cs, hcs, hc⟩ := hbegins
      rw [hcs] at heq
      obtain rfl := (List.cons.inj heq).1
      exact absurd hc (by decide)
    · rw [hbegins.skipSpace, hread]
      rfl
  rw [parse, hall]

/-! ### Which characters are printed -/

/-- A printable character of ASCII, or a line feed. -/
def IsPrinted (c : Char) : Prop := c = '\n' ∨ (0x20 ≤ c.toNat ∧ c.toNat < 0x7F)

instance (c : Char) : Decidable (IsPrinted c) := inferInstanceAs (Decidable (_ ∨ _))

theorem isPrinted_hexPadded (places n : Nat) : ∀ c ∈ hexPadded places n, IsPrinted c := by
  induction places generalizing n with
  | zero => simp [hexPadded]
  | succ places ih =>
    have hdigit : ∀ d < 16, IsPrinted (hexDigit d) := by decide
    simp only [hexPadded, List.forall_mem_append, List.forall_mem_singleton]
    exact ⟨ih _, hdigit _ (Nat.mod_lt _ (by decide))⟩

theorem isPrinted_escapeChar (c : Char) : ∀ c' ∈ escapeChar c, IsPrinted c' := by
  unfold escapeChar
  split_ifs with _ _ _ _ _ _ _ hplain
  all_goals try exact forall_mem_of_all (by decide)
  · exact List.forall_mem_singleton.mpr (.inr hplain)
  · intro c' hc'
    obtain ⟨u, -, hc'⟩ := List.mem_flatMap.mp hc'
    have hmark : ∀ c ∈ ['\\', 'u'], IsPrinted c := forall_mem_of_all (by decide)
    rcases List.mem_append.mp (show c' ∈ ['\\', 'u'] ++ hexPadded 4 u from hc') with h | h
    · exact hmark c' h
    · exact isPrinted_hexPadded 4 u c' h

theorem isPrinted_escaped (s : String) : ∀ c ∈ (escaped s).toList, IsPrinted c := by
  simp only [toList_escaped, List.forall_mem_cons, List.forall_mem_append, List.mem_flatMap,
    forall_exists_index, and_imp]
  exact ⟨by decide, fun c c' _ hc ↦ isPrinted_escapeChar c' c hc, by decide, by simp⟩

theorem isPrinted_newline (depth : Nat) : ∀ c ∈ (newline depth).toList, IsPrinted c := by
  simp only [newline, String.toList_append, List.forall_mem_append, String.toList_ofList]
  exact ⟨forall_mem_of_all (by decide), fun c hc ↦ by rw [List.eq_of_mem_replicate hc]; decide⟩

/-- The value is printed in printable characters. -/
def AllPrinted (j : Json) : Prop := ∀ depth, ∀ c ∈ (prettyAt depth j).toList, IsPrinted c

theorem isPrinted_prettyItems {items : List Json} (hitems : ∀ j ∈ items, AllPrinted j)
    (depth : Nat) : ∀ c ∈ (prettyItems depth items).toList, IsPrinted c := by
  induction items with
  | nil => simp [prettyItems]
  | cons j items ih =>
    have hfirst := hitems j List.mem_cons_self depth
    cases items with
    | nil =>
      simp only [prettyItems, String.toList_append, List.forall_mem_append]
      exact ⟨isPrinted_newline depth, hfirst⟩
    | cons next items =>
      rw [prettyItems]
      · simp only [String.toList_append, List.forall_mem_append]
        exact ⟨⟨⟨isPrinted_newline depth, hfirst⟩, forall_mem_of_all (by decide)⟩,
          ih fun j hj ↦ hitems j (List.mem_cons_of_mem _ hj)⟩
      · exact List.cons_ne_nil _ _

theorem isPrinted_prettyFields {fields : List (String × Json)}
    (hfields : ∀ f ∈ fields, AllPrinted f.2) (depth : Nat) :
    ∀ c ∈ (prettyFields depth fields).toList, IsPrinted c := by
  induction fields with
  | nil => simp [prettyFields]
  | cons f fields ih =>
    obtain ⟨name, j⟩ := f
    have hfirst : ∀ c ∈ (prettyAt depth j).toList, IsPrinted c :=
      hfields (name, j) List.mem_cons_self depth
    cases fields with
    | nil =>
      simp only [prettyFields, String.toList_append, List.forall_mem_append]
      exact ⟨⟨⟨isPrinted_newline depth, isPrinted_escaped name⟩, forall_mem_of_all (by decide)⟩,
        hfirst⟩
    | cons next fields =>
      rw [prettyFields]
      · simp only [String.toList_append, List.forall_mem_append]
        exact ⟨⟨⟨⟨⟨isPrinted_newline depth, isPrinted_escaped name⟩,
          forall_mem_of_all (by decide)⟩, hfirst⟩, forall_mem_of_all (by decide)⟩,
          ih fun f hf ↦ hfields f (List.mem_cons_of_mem _ hf)⟩
      · exact List.cons_ne_nil _ _

/-- What is printed is ASCII, and line feeds are the only controls in it. -/
theorem Plain.allPrinted {j : Json} (hj : Plain j) : AllPrinted j := by
  induction hj with
  | null =>
    intro depth
    simp only [prettyAt]
    exact forall_mem_of_all (by decide)
  | bool b =>
    intro depth
    cases b <;> simp only [prettyAt] <;> exact forall_mem_of_all (by decide)
  | str s =>
    intro depth
    simp only [prettyAt]
    exact isPrinted_escaped s
  | @arr items hitems ih =>
    intro depth
    by_cases hne : items = []
    · subst hne
      simp only [prettyAt]
      exact forall_mem_of_all (by decide)
    · rw [prettyAt]
      · simp only [String.toList_append, List.forall_mem_append]
        exact ⟨⟨⟨forall_mem_of_all (by decide), isPrinted_prettyItems ih _⟩,
          isPrinted_newline depth⟩, forall_mem_of_all (by decide)⟩
      · exact hne
  | @obj fields hnames hfields ih =>
    intro depth
    by_cases hne : fields = []
    · subst hne
      simp only [prettyAt]
      exact forall_mem_of_all (by decide)
    · rw [prettyAt]
      · simp only [String.toList_append, List.forall_mem_append]
        exact ⟨⟨⟨forall_mem_of_all (by decide), isPrinted_prettyFields ih _⟩,
          isPrinted_newline depth⟩, forall_mem_of_all (by decide)⟩
      · exact hne

end Remedy.Json
