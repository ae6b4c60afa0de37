import DeskCheck.Proofs.Brackets

/-!
# The assignment sign

A line is cut at its assignment sign before either side is read.  What a sign is can be said of any
place of a text (`SignAt`): an equals sign outside of quotes and brackets with no character of a
comparison next to it.  The search is a walk over the text that stops at the first such place
(`splitAssignment?_eq`).

The place is given in bytes.  Every byte of a character beyond ASCII is itself beyond ASCII, so the
search comes to the same sign whether it reads characters or bytes (`splitAssignment?_octets`).

The scanner may be started anew behind any character that cannot be the first of two that make a
mark together (`Token.scan_cut`), and quotes and brackets are the same for the search and for the
scanner (`Nesting.after_run`).  Main result (`assignmentOffset?_cuts`): the two cut a line in the same
way, and the search passes over no sign.
-/

namespace DeskCheck

/-! ### Bytes -/

namespace Text

/-- The bytes of a text in UTF-8, each as the character of its number. -/
def octets (text : List Char) : List Char :=
  (String.ofList text).toByteArray.data.toList.map fun b => Char.ofNat b.toNat

/-- The bytes of one character. -/
def octetsOf (c : Char) : List Char :=
  (String.utf8EncodeChar c).map fun b => Char.ofNat b.toNat

variable {c a : Char} {text : List Char}

@[simp] theorem octets_nil : octets [] = [] := rfl

@[simp] theorem octets_cons (c : Char) (text : List Char) :
    octets (c :: text) = octetsOf c ++ octets text := by
  simp [octets, octetsOf, List.utf8Encode, String.toByteArray_ofList]

@[simp] theorem octets_append (a b : List Char) : octets (a ++ b) = octets a ++ octets b := by
  induction a with
  | nil => rfl
  | cons c a ih => rw [List.cons_append, octets_cons, octets_cons, ih, List.append_assoc]

theorem length_octets (text : List Char) :
    (octets text).length = (String.ofList text).utf8ByteSize := by
  rw [octets, List.length_map, Array.length_toList]
  rfl

/-- An ASCII character is its own byte. -/
theorem octetsOf_ascii (h : c.toNat < 128) : octetsOf c = [c] := by
  have hone : c.utf8Size = 1 := by
    rw [Char.utf8Size_eq_one_iff, UInt32.le_iff_toNat_le]
    exact Nat.le_of_lt_succ h
  have hbyte : c.val.toUInt8.toNat = c.toNat := by
    show c.toNat % 256 = c.toNat
    omega
  rw [octetsOf, String.utf8EncodeChar_eq_singleton hone, List.map_singleton, hbyte,
    Char.ofNat_toNat]

theorem octetsOf_ne_nil (c : Char) : octetsOf c ≠ [] := by
  have hlength := String.length_utf8EncodeChar c
  have hpos := c.utf8Size_pos
  rw [octetsOf, Ne, List.map_eq_nil_iff, ← List.length_eq_zero_iff]
  omega

theorem le_toNat_ofNat {n : Nat} (hlow : 128 ≤ n) (hhigh : n < 256) :
    128 ≤ (UInt8.ofNat n).toNat := by
  rwa [UInt8.toNat_ofNat', Nat.mod_eq_of_lt hhigh]

/-- UTF-8 writes a character beyond ASCII without a byte of ASCII. -/
theorem le_of_mem_utf8EncodeChar {byte : UInt8} (h : 128 ≤ c.toNat)
    (hbyte : byte ∈ String.utf8EncodeChar c) : 128 ≤ byte.toNat := by
  have hcode : 128 ≤ c.val.toNat := h
  -- one case for each number of bytes; a single byte is ruled out
  simp only [String.utf8EncodeChar] at hbyte
  split at hbyte
  · omega
  · split at hbyte
    · simp only [List.mem_cons, List.not_mem_nil, or_false] at hbyte
      rcases hbyte with rfl | rfl <;> exact le_toNat_ofNat (by omega) (by omega)
    · split at hbyte
      · simp only [List.mem_cons, List.not_mem_nil, or_false] at hbyte
        rcases hbyte with rfl | rfl | rfl <;> exact le_toNat_ofNat (by omega) (by omega)
      · simp only [List.mem_cons, List.not_mem_nil, or_false] at hbyte
        rcases hbyte with rfl | rfl | rfl | rfl <;> exact le_toNat_ofNat (by omega) (by omega)

/-- The bytes of any other character are none of ASCII. -/
theorem le_of_mem_octetsOf (h : 128 ≤ c.toNat) : ∀ b ∈ octetsOf c, 128 ≤ b.toNat := by
  intro b hb
  obtain ⟨byte, hbyte, rfl⟩ := List.mem_map.mp hb
  have hvalid : byte.toNat.isValidChar := .inl (by have := byte.toNat_lt; omega)
  rw [Char.ofNat, dif_pos hvalid]
  exact le_of_mem_utf8EncodeChar h hbyte

/-- A character of ASCII is among the bytes of no other one. -/
theorem eq_of_mem_octetsOf (ha : a.toNat < 128) (h : a ∈ octetsOf c) : a = c := by
  by_cases hc : c.toNat < 128
  · rw [octetsOf_ascii hc] at h
    exact List.mem_singleton.mp h
  · have := le_of_mem_octetsOf (Nat.le_of_not_lt hc) a h
    omega

/-- The bytes begin with a character of ASCII just if the text does. -/
theorem head?_octets (ha : a.toNat < 128) :
    (octets text).head? = some a ↔ text.head? = some a := by
  cases text with
  | nil => rfl
  | cons c text =>
    rw [octets_cons, List.head?_append_of_ne_nil _ (octetsOf_ne_nil c), List.head?_cons]
    constructor
    · intro h
      rw [eq_of_mem_octetsOf ha (List.mem_of_head? h)]
    · rintro ⟨⟩
      rw [octetsOf_ascii ha, List.head?_cons]

/-- The bytes end in a character of ASCII just if the text does. -/
theorem getLast?_octets (ha : a.toNat < 128) :
    (octets text).getLast? = some a ↔ text.getLast? = some a := by
  rcases List.eq_nil_or_concat text with rfl | ⟨text, c, rfl⟩
  · rfl
  · rw [List.concat_eq_append, octets_append, octets_cons, octets_nil, List.append_nil,
      List.getLast?_append_of_ne_nil _ (octetsOf_ne_nil c), List.getLast?_concat]
    constructor
    · intro h
      rw [eq_of_mem_octetsOf ha (List.mem_of_getLast? h)]
    · rintro ⟨⟩
      rw [octetsOf_ascii ha, List.getLast?_singleton]

end Text

/-- A character beyond ASCII is no bracket and no quote. -/
theorem Nesting.not_isCounted_of_le {b : Char} (h : 128 ≤ b.toNat) : ¬ IsCounted b := by
  rintro (rfl | (rfl | rfl) | rfl | rfl) <;> exact absurd h (by decide)

/-- Quotes and brackets are the same among the bytes as in the text. -/
theorem Nesting.after_octets (n : Nesting) (text : List Char) :
    n.after (Text.octets text) = n.after text := by
  induction text generalizing n with
  | nil => rfl
  | cons c text ih =>
    have hstep : n.after (Text.octetsOf c) = n.step c := by
      by_cases hc : c.toNat < 128
      · rw [Text.octetsOf_ascii hc]
        rfl
      · have hhigh : 128 ≤ c.toNat := Nat.le_of_not_lt hc
        rw [step_of_not_isCounted (not_isCounted_of_le hhigh), after_of_not_isCounted]
        intro b hb
        exact not_isCounted_of_le (Text.le_of_mem_octetsOf hhigh b hb)
    rw [Text.octets_cons, after_append, hstep, ih]
    rfl

/-! ### The search finds the first sign -/

namespace Line

open Text (octets octetsOf)

/-- The characters that an equals sign behind them makes a comparison with. -/
def comparing : List Char := ['=', '!', '<', '>']

/-- Between these two characters, if there are any, an equals sign is no part of a comparison. -/
def StandsAlone (before behind : Option Char) : Prop :=
  (∀ p ∈ comparing, before ≠ some p) ∧ behind ≠ some '='

instance (before behind : Option Char) : Decidable (StandsAlone before behind) :=
  have : Decidable (∀ p ∈ comparing, before ≠ some p) := List.decidableBAll _ _
  inferInstanceAs (Decidable (_ ∧ _))

/-- At place `i` of a text is an assignment sign: an equals sign outside of quotes and brackets that
stands alone.  A bracket that closes none does not count. -/
def SignAt (text : List Char) (i : Nat) : Prop :=
  text[i]? = some '=' ∧ Nesting.outside.after (text.take i) = .outside ∧
    StandsAlone (text.take i).getLast? text[i + 1]?

instance (text : List Char) (i : Nat) : Decidable (SignAt text i) :=
  inferInstanceAs (Decidable (_ ∧ _ ∧ _))

/-- The first place of a text with an assignment sign. -/
def firstSign? (text : List Char) : Option Nat :=
  (List.range text.length).find? fun i => SignAt text i

variable {text left right : List Char} {i : Nat} {c : Char}

theorem signAt_append_cons :
    SignAt (left ++ c :: right) left.length ↔
      c = '=' ∧ Nesting.outside.after left = .outside ∧
        StandsAlone left.getLast? right.head? := by
  simp [SignAt, List.getElem?_append_right, List.head?_eq_getElem?]

theorem SignAt.lt_length (h : SignAt text i) : i < text.length :=
  (List.getElem?_eq_some_iff.mp h.1).1

theorem SignAt.eq_append_cons (h : SignAt text i) :
    text = text.take i ++ '=' :: text.drop (i + 1) := by
  obtain ⟨hi, hc⟩ := List.getElem?_eq_some_iff.mp h.1
  rw [← hc, ← List.drop_eq_getElem_cons hi, List.take_append_drop]

theorem firstSign?_eq_some (h : firstSign? text = some i) :
    SignAt text i ∧ ∀ j < i, ¬ SignAt text j := by
  obtain ⟨hsign, -, hfirst⟩ := List.find?_range_eq_some.mp h
  exact ⟨of_decide_eq_true hsign, fun j hj => by simpa using hfirst j hj⟩

theorem firstSign?_eq_none (h : firstSign? text = none) (i : Nat) : ¬ SignAt text i := by
  intro hsign
  have hnone := List.find?_eq_none.mp h i (List.mem_range.mpr hsign.lt_length)
  exact hnone (decide_eq_true hsign)

/-- One step of the search. -/
theorem splitFrom_step (passed : List Char) (n : Nesting) (c : Char) (rest : List Char) :
    splitFrom passed n.quoted n.depth (c :: rest) =
      if c = '=' ∧ n = .outside ∧ StandsAlone passed.head? rest.head? then
        some (passed.reverse, rest)
      else splitFrom (c :: passed) (n.step c).quoted (n.step c).depth rest := by
  have hbefore : (passed.head?).all (fun p => p ∉ ['=', '!', '<', '>']) = true ↔
      ∀ p ∈ comparing, passed.head? ≠ some p := by
    cases passed with
    | nil => simp
    | cons p passed => simp [comparing]
  have halone : (passed.head?).all (fun p => p ∉ ['=', '!', '<', '>']) = true ∧
      rest.head? ≠ some '=' ↔ StandsAlone passed.head? rest.head? := and_congr_left' hbefore
  simp only [splitFrom_cons, halone]

/-- From any place on, the search looks at one place after the other. -/
theorem splitFrom_eq (passed rest : List Char) :
    splitFrom passed (Nesting.outside.after passed.reverse).quoted
        (Nesting.outside.after passed.reverse).depth rest =
      ((List.range' passed.length rest.length).find? fun i => SignAt (passed.reverse ++ rest) i).map
        fun i => ((passed.reverse ++ rest).take i, (passed.reverse ++ rest).drop (i + 1)) := by
  induction rest generalizing passed with
  | nil => simp [splitFrom]
  | cons c rest ih =>
    -- what the search asks of the character it reads is that the sign is there
    have hsign : SignAt (passed.reverse ++ c :: rest) passed.length ↔
        c = '=' ∧ Nesting.outside.after passed.reverse = .outside ∧
          StandsAlone passed.head? rest.head? := by
      rw [← List.length_reverse, signAt_append_cons, List.getLast?_reverse]
    rw [splitFrom_step, List.length_cons, List.range'_succ, List.find?_cons]
    by_cases h : SignAt (passed.reverse ++ c :: rest) passed.length
    · have htake : (passed.reverse ++ c :: rest).take passed.length = passed.reverse :=
        List.take_left' List.length_reverse
      have hdrop : (passed.reverse ++ c :: rest).drop (passed.length + 1) = rest := by
        rw [← List.drop_drop, List.drop_left' List.length_reverse]
        rfl
      rw [if_pos (hsign.mp h), decide_eq_true h, Option.map_some, htake, hdrop]
    · have hnext := ih (c :: passed)
      rw [List.reverse_cons, Nesting.after_append, List.append_assoc] at hnext
      rw [if_neg (mt hsign.mpr h), decide_eq_false h]
      exact hnext

/-- The search finds the first sign of a text. -/
theorem splitAssignment?_eq (text : List Char) :
    splitAssignment? text =
      (firstSign? text).map fun i => (text.take i, text.drop (i + 1)) := by
  have h := splitFrom_eq [] text
  rwa [List.length_nil, ← List.range_eq_range'] at h

/-! ### Reading bytes -/

/-- An equals sign stands alone among the bytes just if it does in the text. -/
theorem standsAlone_octets :
    StandsAlone (octets left).getLast? (octets right).head? ↔
      StandsAlone left.getLast? right.head? := by
  have hascii : ∀ p ∈ comparing, p.toNat < 128 := by simp [comparing]
  refine and_congr ?_ (not_congr (Text.head?_octets (by decide)))
  exact forall₂_congr fun p hp => not_congr (Text.getLast?_octets (hascii p hp))

/-- A sign is the same among the bytes as in the text. -/
theorem signAt_octets :
    SignAt (octets (left ++ '=' :: right)) (octets left).length ↔
      SignAt (left ++ '=' :: right) left.length := by
  have hbyte : octetsOf '=' = ['='] := Text.octetsOf_ascii (by decide)
  rw [Text.octets_append, Text.octets_cons, hbyte, List.singleton_append, signAt_append_cons,
    signAt_append_cons, Nesting.after_octets, standsAlone_octets]

/-- The search passes over the bytes of a character beyond ASCII. -/
theorem splitFrom_high {bytes : List Char} (h : ∀ b ∈ bytes, 128 ≤ b.toNat)
    (passed rest : List Char) (n : Nesting) :
    splitFrom passed n.quoted n.depth (bytes ++ rest) =
      splitFrom (bytes.reverse ++ passed) n.quoted n.depth rest := by
  induction bytes generalizing passed with
  | nil => rfl
  | cons b bytes ih =>
    obtain ⟨hb, hbytes⟩ := List.forall_mem_cons.mp h
    have hsign : b ≠ '=' := by
      rintro rfl
      exact absurd hb (by decide)
    have hcount : ¬ Nesting.IsCounted b := Nesting.not_isCounted_of_le hb
    rw [List.cons_append, splitFrom_step, if_neg fun h => hsign h.1,
      Nesting.step_of_not_isCounted hcount, ih hbytes, List.reverse_cons, List.append_assoc]
    rfl

/-- From any place on, the search through the bytes goes with the search through the text. -/
theorem splitFrom_octets (passed text : List Char) (n : Nesting) :
    splitFrom (octets passed.reverse).reverse n.quoted n.depth (octets text) =
      (splitFrom passed n.quoted n.depth text).map (Prod.map octets octets) := by
  induction text generalizing passed n with
  | nil => rfl
  | cons c text ih =>
    have hpassed : (octets (c :: passed).reverse).reverse =
        (octetsOf c).reverse ++ (octets passed.reverse).reverse := by
      rw [List.reverse_cons, Text.octets_append, Text.octets_cons, Text.octets_nil, List.append_nil,
        List.reverse_append]
    rw [Text.octets_cons]
    by_cases hc : c.toNat < 128
    · -- a byte of ASCII gets the same answer as the character that it is
      have halone : StandsAlone (octets passed.reverse).reverse.head? (octets text).head? ↔
          StandsAlone passed.head? text.head? := by
        rw [List.head?_reverse, standsAlone_octets, List.getLast?_reverse]
      have hnext := ih (c :: passed) (n.step c)
      rw [hpassed, Text.octetsOf_ascii hc] at hnext
      rw [Text.octetsOf_ascii hc, List.singleton_append, splitFrom_step, splitFrom_step]
      simp only [halone]
      split
      · rw [List.reverse_reverse]
        rfl
      · exact hnext
    · -- neither the character nor one of its bytes is anything to the search
      have hhigh : 128 ≤ c.toNat := Nat.le_of_not_lt hc
      have hskip : splitFrom passed n.quoted n.depth (c :: text) =
          splitFrom (c :: passed) n.quoted n.depth text :=
        splitFrom_high (List.forall_mem_singleton.mpr hhigh) passed text n
      rw [splitFrom_high (Text.le_of_mem_octetsOf hhigh), hskip, ← hpassed]
      exact ih (c :: passed) n

/-- The search comes to the same sign in the bytes of a line as in the line. -/
theorem splitAssignment?_octets (line : List Char) :
    splitAssignment? (octets line) = (splitAssignment? line).map (Prod.map octets octets) :=
  splitFrom_octets [] line .outside

/-- The place that the search gives is the first sign among the bytes of the line. -/
theorem assignmentOffset?_eq (line : List Char) :
    assignmentOffset? line = firstSign? (octets line) := by
  have hlength : assignmentOffset? line = (splitAssignment? (octets line)).map (·.1.length) := by
    rw [splitAssignment?_octets, Option.map_map, assignmentOffset?]
    congr 1
    funext cut
    exact (Text.length_octets cut.1).symm
  rw [hlength, splitAssignment?_eq, Option.map_map]
  cases h : firstSign? (octets line) with
  | none => rfl
  | some i =>
    have hi : i < (octets line).length := (firstSign?_eq_some h).1.lt_length
    show some ((octets line).take i).length = some i
    rw [List.length_take, Nat.min_eq_left hi.le]

end Line

/-! ### The scanner at the sign -/

namespace Token

/-- The number of open brackets behind one more token; a bracket that closes none is passed over. -/
def count (depth : Nat) (tok : Token) : Nat := (count? depth tok).getD depth

/-- The number of open brackets behind tokens. -/
def openBrackets (depth : Nat) (ts : List Token) : Nat := ts.foldl count depth

variable {mode : Mode} {depth depth' : Nat} {ts us : List Token} {c : Char} {o : Opening}
  {left right : List Char}

theorem openBrackets_append (depth : Nat) (ts us : List Token) :
    openBrackets depth (ts ++ us) = openBrackets (openBrackets depth ts) us :=
  List.foldl_append

theorem openBrackets_of_nesting? (h : nesting? depth ts = some depth') :
    openBrackets depth ts = depth' := by
  induction ts generalizing depth with
  | nil => exact Option.some.inj h
  | cons tok ts ih =>
    rw [nesting?_cons] at h
    obtain ⟨d, hcount, hrest⟩ := Option.bind_eq_some_iff.mp h
    rw [openBrackets, List.foldl_cons, count, hcount]
    exact ih hrest

/-- Every transition counts its character, also a bracket that closes none. -/
theorem step_advance (mode : Mode) (depth : Nat) (c : Char) :
    Nesting.step ⟨mode.isText, depth⟩ c =
      ⟨(advance mode c).2.isText, openBrackets depth (advance mode c).1⟩ := by
  have hadvance := step?_advance mode depth c
  by_cases hstray : mode.isText = false ∧ (c = ')' ∨ c = ']') ∧ depth = 0
  · -- such a bracket is the only character that the stricter count refuses
    obtain ⟨hmode, hclose, rfl⟩ := hstray
    have hplain : openBrackets 0 mode.close = 0 :=
      openBrackets_of_nesting? (nesting?_of_plain mode.close_plain 0)
    have htext : ∀ read, mode ≠ .text read := by
      rintro read rfl
      cases hmode
    rcases hclose with rfl | rfl
    all_goals
      rw [advance_lone rfl htext, openBrackets_append, hplain, hmode]
      rfl
  · rw [Nesting.step?, if_neg hstray] at hadvance
    obtain ⟨d, hcount, hstep⟩ := Option.map_eq_some_iff.mp hadvance.symm
    rw [openBrackets_of_nesting? hcount, ← hstep]

end Token

/-- **The search and the scanner count alike**, stray brackets included: behind every text, the one
is in quotes where the other is in a text, and as many brackets are open among its tokens. -/
theorem Nesting.after_run (mode : Token.Mode) (depth : Nat) (text : List Char) :
    after ⟨mode.isText, depth⟩ text =
      ⟨(Token.run mode text).2.isText, Token.openBrackets depth (Token.run mode text).1⟩ := by
  induction text generalizing mode depth with
  | nil => rfl
  | cons c text ih =>
    rw [after, List.foldl_cons, Token.step_advance, Token.run, Token.openBrackets_append]
    exact ih _ _

namespace Token

variable {mode : Mode} {c : Char} {o : Opening} {left right : List Char}

/-- The scanner waits for an equals sign only behind a character that an equals sign completes. -/
theorem ofChar?_of_begin (h : (begin c).2 = .opening o) : Opening.ofChar? c = some o := by
  rw [begin] at h
  grind

/-- This is so in every mode; a word, a number or a text that goes on waits for none. -/
theorem ofChar?_of_advance (h : (advance mode c).2 = .opening o) : Opening.ofChar? c = some o := by
  cases mode with
  | between => exact ofChar?_of_begin h
  | text read | word read | number read pointed | opening p => grind [advance, ofChar?_of_begin]

theorem mem_comparing_of_ofChar? (h : Opening.ofChar? c = some o) : c ∈ Line.comparing := by
  unfold Opening.ofChar? at h
  split at h
  case h_5 => cases h
  all_goals decide

/-- Behind other characters it does not. -/
theorem run_ne_opening (h : ∀ p ∈ Line.comparing, left.getLast? ≠ some p) (o : Opening) :
    (run .between left).2 ≠ .opening o := by
  intro hmode
  rcases List.eq_nil_or_concat left with rfl | ⟨init, c, rfl⟩
  · cases hmode
  · rw [List.concat_eq_append] at h hmode
    rw [run_append] at hmode
    have hc := mem_comparing_of_ofChar? (ofChar?_of_advance hmode)
    exact h c hc List.getLast?_concat

/-- An equals sign ends what is being read, unless that is a text or something that it completes. -/
theorem advance_assign (htext : mode.isText = false) (hopening : ∀ o, mode ≠ .opening o) :
    advance mode '=' = (mode.close, .opening .assign) := by
  have hbegin : begin '=' = ([], .opening .assign) := rfl
  cases mode with
  | between => rfl
  | text read => cases htext
  | opening o => exact absurd rfl (hopening o)
  | word read =>
    have hword : isWordChar '=' = false := by decide
    simp [advance, hword, hbegin]
  | number read pointed =>
    have hdigit : Char.isDigit '=' = false := by decide
    simp [advance, hdigit, hbegin]

/-- Behind a sign that nothing completes the scanner reads as at the front of a text. -/
theorem run_behind_assign (h : right.head? ≠ some '=') :
    (run (.opening .assign) right).1 ++ (run (.opening .assign) right).2.close =
      .mark .assign :: scan right := by
  cases right with
  | nil => rfl
  | cons c right =>
    have hc : c ≠ '=' := by
      rintro rfl
      exact h rfl
    simp [run, scan, advance, hc, Mode.close, Opening.alone]

/-- The scanner reads an equals sign that stands alone outside of quotes as a token, and each side
of it as a text of its own. -/
theorem scan_cut (htext : (run .between left).2.isText = false)
    (halone : Line.StandsAlone left.getLast? right.head?) :
    scan (left ++ '=' :: right) = scan left ++ .mark .assign :: scan right := by
  obtain ⟨hbefore, hbehind⟩ := halone
  -- the sign ends what is being read, and waits to see what is behind it
  have hassign := advance_assign htext (run_ne_opening hbefore)
  calc scan (left ++ '=' :: right)
      = (run .between left).1 ++ ((run .between left).2.close ++
          ((run (.opening .assign) right).1 ++ (run (.opening .assign) right).2.close)) := by
        simp only [scan, run_append, run, hassign, List.append_assoc]
    _ = scan left ++ .mark .assign :: scan right := by
        rw [run_behind_assign hbehind, ← List.append_assoc]
        rfl

end Token

namespace Line

open Text (octets)

variable {left right line : List Char}

/-- What the search asks of a place, in the terms of the scanner. -/
theorem signAt_iff_scanner :
    SignAt (left ++ '=' :: right) left.length ↔
      (Token.run .between left).2.isText = false ∧
        Token.openBrackets 0 (Token.run .between left).1 = 0 ∧
        StandsAlone left.getLast? right.head? := by
  have hafter : Nesting.outside.after left = _ := Nesting.after_run .between 0 left
  rw [signAt_append_cons, hafter, Nesting.outside, Nesting.mk.injEq, and_assoc]
  exact and_iff_right rfl

/-- The scanner cuts a line where the search does. -/
theorem scan_of_splitAssignment? (h : splitAssignment? line = some (left, right)) :
    line = left ++ '=' :: right ∧
      Token.scan line = Token.scan left ++ .mark .assign :: Token.scan right := by
  rw [splitAssignment?_eq] at h
  obtain ⟨i, hfirst, hcut⟩ := Option.map_eq_some_iff.mp h
  obtain ⟨rfl, rfl⟩ := Prod.mk.inj hcut
  have hsign := (firstSign?_eq_some hfirst).1
  -- the two sides by name, so that the place is the length of the left one
  have hline := hsign.eq_append_cons
  have hlength : (line.take i).length = i := List.length_take_of_le hsign.lt_length.le
  generalize line.take i = left, line.drop (i + 1) = right at hline hlength
  subst hline hlength
  obtain ⟨htext, -, halone⟩ := signAt_iff_scanner.mp hsign
  exact ⟨rfl, Token.scan_cut htext halone⟩

/-- **The search and the scanner cut a line in the same way.**  Where the search gives a place, in
bytes, the tokens of the line are those in front of it, the sign, and those behind it; the sign is
there among the bytes of the line, and none is before.  Where it gives none, there is none.  And
whether an equals sign is outside of quotes and brackets, the scanner tells as well: by the mode that
it comes there in, and by the brackets that its tokens leave open. -/
theorem assignmentOffset?_cuts (line : List Char) :
    (∀ i, assignmentOffset? line = some i →
      (∃ left right, line = left ++ '=' :: right ∧ (String.ofList left).utf8ByteSize = i ∧
        Token.scan line = Token.scan left ++ .mark .assign :: Token.scan right) ∧
      SignAt (octets line) i ∧ ∀ j < i, ¬ SignAt (octets line) j) ∧
    (assignmentOffset? line = none → ∀ j, ¬ SignAt (octets line) j) ∧
    (∀ left right, line = left ++ '=' :: right →
      (SignAt (octets line) (String.ofList left).utf8ByteSize ↔
        (Token.run .between left).2.isText = false ∧
          Token.openBrackets 0 (Token.run .between left).1 = 0 ∧
          StandsAlone left.getLast? right.head?)) := by
  refine ⟨?_, ?_, ?_⟩
  · intro i hi
    obtain ⟨⟨left, right⟩, hsplit, hplace⟩ := Option.map_eq_some_iff.mp hi
    obtain ⟨hline, htokens⟩ := scan_of_splitAssignment? hsplit
    rw [assignmentOffset?_eq] at hi
    exact ⟨⟨left, right, hline, hplace, htokens⟩, firstSign?_eq_some hi⟩
  · intro hnone
    rw [assignmentOffset?_eq] at hnone
    exact firstSign?_eq_none hnone
  · rintro left right rfl
    rw [← Text.length_octets, signAt_octets, signAt_iff_scanner]

/-- A line with a character of two bytes, an exclamation mark that is no token, an equals sign in
quotes, a bracket that closes none, and quotes that are not closed; and a line that only compares. -/
theorem assignmentOffset?_cuts_untidy :
    let line := "é! \"=\" ) = \"a".toList
    (assignmentOffset? line = some 10 ∧
      (∃ left right, line = left ++ '=' :: right ∧ (String.ofList left).utf8ByteSize = 10 ∧
        Token.scan line = Token.scan left ++ .mark .assign :: Token.scan right) ∧
      SignAt (octets line) 10 ∧ ∀ j < 10, ¬ SignAt (octets line) j) ∧
    ¬ SignAt (octets line) 5 ∧
    assignmentOffset? "a == b".toList = none ∧ ∀ j, ¬ SignAt (octets "a == b".toList) j := by
  have hoffset : assignmentOffset? "é! \"=\" ) = \"a".toList = some 10 := by decide
  have hnone : assignmentOffset? "a == b".toList = none := by decide
  have hquoted := (assignmentOffset?_cuts "é! \"=\" ) = \"a".toList).2.2 "é! \"".toList
    "\" ) = \"a".toList rfl
  refine ⟨⟨hoffset, (assignmentOffset?_cuts _).1 10 hoffset⟩, ?_, hnone,
    (assignmentOffset?_cuts _).2.1 hnone⟩
  intro hsign
  exact absurd (hquoted.mp hsign).1 (by decide)

end Line
end DeskCheck
