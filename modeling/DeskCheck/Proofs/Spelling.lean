import DeskCheck.Line.Classify
import DeskCheck.Proofs.Numeral
import Mathlib.Data.List.Basic
import Mathlib.Data.List.TakeWhile

/-!
# Tokens as they are written

A token has a spelling, and a row of tokens is written with single spaces between them
(`Token.written`).  The scanner reads back what is written if each of the tokens is one that can be
written: a number has no sign, a text no quote in it, and a name is a name (`spells_written`).

`Spells` is what is carried along a text: the tokens that it is read as, and that it does not end in
the middle of a quotation.  Such a text may be put in front of another one with a blank between
them (`Spells.append`).
-/

namespace DeskCheck

namespace Token

/-- The token as it is written. -/
def spelling : Token → List Char
  | .number n => n.toChars
  | .text s => '"' :: (s.toList ++ ['"'])
  | .name s => s.toList
  | .keyword k => k.spelling.toList
  | .mark m => m.spelling.toList

/-- Whether the token can be written. -/
def isWritable : Token → Bool
  | .number (.finite negative _ _) => !negative
  | .number _ => false
  | .text s => !s.toList.contains '"'
  | .name s => Line.isName s.toList
  | .keyword _ | .mark _ => true

/-- Tokens with single spaces between them. -/
def written (ts : List Token) : List Char := [' '].intercalate (ts.map spelling)

end Token

open Text (isBlank trim trimStart trimEnd)

/-! ### Blanks -/

namespace Text

/-- Blanks are no letters, digits or marks. -/
theorem toNat_of_isBlank {c : Char} (h : isBlank c = true) : c.toNat ≤ 0x20 ∨ 0x85 ≤ c.toNat := by
  simp only [isBlank, Bool.or_eq_true, Bool.and_eq_true, beq_iff_eq, decide_eq_true_eq] at h
  omega

theorem exists_trimEnd (text : List Char) :
    ∃ after, text = trimEnd text ++ after ∧ ∀ c ∈ after, isBlank c = true := by
  refine ⟨(text.reverse.takeWhile isBlank).reverse, ?_, fun c hc => ?_⟩
  · rw [trimEnd, ← List.reverse_append, List.takeWhile_append_dropWhile, List.reverse_reverse]
  · exact List.mem_takeWhile_imp (List.mem_reverse.mp hc)

/-- What trimming drops is blank. -/
theorem exists_trim (text : List Char) :
    ∃ before after, text = before ++ trim text ++ after ∧ (∀ c ∈ before, isBlank c = true) ∧
      ∀ c ∈ after, isBlank c = true := by
  obtain ⟨after, hafter, hblank⟩ := exists_trimEnd (trimStart text)
  refine ⟨text.takeWhile isBlank, after, ?_, fun c hc => List.mem_takeWhile_imp hc, hblank⟩
  rw [trim, List.append_assoc, ← hafter, trimStart, List.takeWhile_append_dropWhile]

/-- A text without blanks at its two ends. -/
def Tight (text : List Char) : Prop :=
  (∀ c ∈ text.head?, isBlank c = false) ∧ ∀ c ∈ text.getLast?, isBlank c = false

theorem trimEnd_append {text blanks : List Char} (h : ∀ c ∈ text.getLast?, isBlank c = false)
    (hblanks : ∀ c ∈ blanks, isBlank c = true) : trimEnd (text ++ blanks) = text := by
  have hreverse : ∀ c ∈ blanks.reverse, isBlank c = true := fun c hc =>
    hblanks c (List.mem_reverse.mp hc)
  have hkeep : text.reverse.dropWhile isBlank = text.reverse := by
    rw [List.getLast?_eq_head?_reverse] at h
    cases hr : text.reverse with
    | nil => rfl
    | cons c rest => rw [List.dropWhile_cons_of_neg (by simp [h c (by simp [hr])])]
  rw [trimEnd, List.reverse_append, List.dropWhile_append_of_pos hreverse, hkeep,
    List.reverse_reverse]

/-- Trimming takes off exactly the blanks around a tight text. -/
theorem trim_append {before text after : List Char} (hbefore : ∀ c ∈ before, isBlank c = true)
    (h : Tight text) (hafter : ∀ c ∈ after, isBlank c = true) :
    trim (before ++ text ++ after) = text := by
  rw [trim, trimStart, List.append_assoc, List.dropWhile_append_of_pos hbefore]
  cases text with
  | nil =>
    have hnone : after.dropWhile isBlank = [] := List.dropWhile_eq_nil_iff.mpr hafter
    rw [List.nil_append, hnone]
    rfl
  | cons c rest =>
    have hc : ¬ isBlank c = true := by simp [h.1 c rfl]
    rw [List.cons_append, List.dropWhile_cons_of_neg hc, ← List.cons_append]
    exact trimEnd_append h.2 hafter

theorem tight_of_not_isBlank {text : List Char} (h : ∀ c ∈ text, isBlank c = false) : Tight text :=
  ⟨fun c hc => h c (List.mem_of_mem_head? hc), fun c hc => h c (List.mem_of_mem_getLast? hc)⟩

/-- There is nothing to trim off a tight text. -/
theorem Tight.trim_eq {text : List Char} (h : Tight text) : trim text = text := by
  have htrim := trim_append (List.forall_mem_nil _) h (List.forall_mem_nil _)
  rwa [List.nil_append, List.append_nil] at htrim

theorem Tight.append {a b : List Char} (ha : Tight a) (hb : Tight b) (hane : a ≠ []) (hbne : b ≠ [])
    (gap : List Char) : Tight (a ++ gap ++ b) := by
  refine ⟨?_, ?_⟩
  · rw [List.append_assoc, List.head?_append_of_ne_nil _ hane]
    exact ha.1
  · rw [List.getLast?_append_of_ne_nil _ hbne]
    exact hb.2

end Text

/-! ### One token -/

namespace Token

open Text (toNat_of_isBlank)

theorem toNat_of_isAlpha {c : Char} (h : c.isAlpha = true) : 0x41 ≤ c.toNat ∧ c.toNat ≤ 0x7a := by
  rcases Bool.or_eq_true_iff.mp h with hupper | hlower
  · have hrange : 'A'.val ≤ c.val ∧ c.val ≤ 'Z'.val := of_decide_eq_true hupper
    simp only [UInt32.le_iff_toNat_le] at hrange
    exact ⟨hrange.1, Nat.le_trans hrange.2 (by decide)⟩
  · have hrange := Bool.and_eq_true_iff.mp hlower
    simp only [decide_eq_true_eq, ge_iff_le, UInt32.le_iff_toNat_le] at hrange
    exact ⟨Nat.le_trans (by decide) hrange.1, hrange.2⟩

theorem toNat_of_isWordChar {c : Char} (h : isWordChar c = true) :
    0x30 ≤ c.toNat ∧ c.toNat ≤ 0x7a := by
  simp only [isWordChar, Char.isAlphanum, Bool.or_eq_true, beq_iff_eq] at h
  rcases h with (halpha | hdigit) | rfl
  · have hrange := toNat_of_isAlpha halpha
    omega
  · have hrange := Char.isDigit_iff_toNat.mp hdigit
    exact ⟨hrange.1, Nat.le_trans hrange.2 (by decide)⟩
  · decide

theorem isWordChar_eq_false_of_isBlank {c : Char} (h : isBlank c = true) :
    isWordChar c = false := by
  have hrange := toNat_of_isBlank h
  cases hc : isWordChar c with
  | false => rfl
  | true =>
    have hword := toNat_of_isWordChar hc
    omega

theorem begin_blank {c : Char} (h : isBlank c = true) : begin c = ([], .between) := by
  have hquote : c ≠ '"' := by
    rintro rfl
    exact absurd h (by decide)
  have hword := isWordChar_eq_false_of_isBlank h
  simp only [isWordChar, Char.isAlphanum, Bool.or_eq_false_iff] at hword
  have hopening : Opening.ofChar? c = none := by
    unfold Opening.ofChar?
    split <;> first | rfl | exact absurd h (by decide)
  have hlone : lone? c = none := by
    unfold lone?
    split <;> first | rfl | exact absurd h (by decide)
  simp [begin, hquote, hword, isWordStart, hopening, hlone]

/-- A blank ends whatever token is being read, unless it stands in a quotation. -/
theorem advance_blank {c : Char} (h : isBlank c = true) {mode : Mode}
    (hmode : ∀ read, mode ≠ .text read) : advance mode c = (mode.close, .between) := by
  have hword := isWordChar_eq_false_of_isBlank h
  have hdigit : c.isDigit = false := by
    simp only [isWordChar, Char.isAlphanum, Bool.or_eq_false_iff] at hword
    exact hword.1.2
  have hne : c ≠ '.' ∧ c ≠ '=' := by
    constructor <;> rintro rfl <;> exact absurd h (by decide)
  cases mode with
  | between => simp [advance, begin_blank h, Mode.close]
  | word read => simp [advance, begin_blank h, hword]
  | number read pointed => simp [advance, begin_blank h, hdigit, hne]
  | text read => exact absurd rfl (hmode read)
  | opening o => simp [advance, begin_blank h, hne]

/-- A mark that nothing can complete is a token of its own, unless it stands in a quotation. -/
theorem advance_lone {c : Char} {m : Mark} (h : lone? c = some m) {mode : Mode}
    (hmode : ∀ read, mode ≠ .text read) : advance mode c = (mode.close ++ [.mark m], .between) := by
  unfold lone? at h
  split at h
  case h_11 => cases h
  all_goals
    cases h
    cases mode with
    | text read => exact absurd rfl (hmode read)
    | _ => rfl

/-- The text is read as the tokens, and it does not end in the middle of a quotation. -/
def Spells (text : List Char) (ts : List Token) : Prop :=
  ∃ done mode, run .between text = (done, mode) ∧ done ++ mode.close = ts ∧
    ∀ read, mode ≠ .text read

theorem Spells.scan_eq {text : List Char} {ts : List Token} (h : Spells text ts) :
    scan text = ts := by
  obtain ⟨done, mode, hrun, htokens, -⟩ := h
  rw [scan, hrun]
  exact htokens

theorem spells_nil : Spells [] [] := ⟨[], .between, rfl, rfl, nofun⟩

/-- Two texts are read one after the other if the character between them ends whatever token is
being read; it may be tokens itself. -/
theorem Spells.append_char {a b : List Char} {ts own us : List Token} (ha : Spells a ts) {c : Char}
    (hc : ∀ mode : Mode, (∀ read, mode ≠ .text read) →
      advance mode c = (mode.close ++ own, .between)) (hb : Spells b us) :
    Spells (a ++ c :: b) (ts ++ (own ++ us)) := by
  obtain ⟨done, mode, hrun, rfl, hmode⟩ := ha
  obtain ⟨later, last, hrun', rfl, hlast⟩ := hb
  refine ⟨done ++ (mode.close ++ own ++ later), last, ?_, by simp, hlast⟩
  rw [run_append, hrun]
  simp only [run, hc mode hmode, hrun']

/-- Two texts with a blank between them are read one after the other. -/
theorem Spells.append {a b : List Char} {ts us : List Token} (ha : Spells a ts) (hb : Spells b us)
    {c : Char} (hc : isBlank c = true) : Spells (a ++ c :: b) (ts ++ us) := by
  have hgap : ∀ mode : Mode, (∀ read, mode ≠ .text read) →
      advance mode c = (mode.close ++ [], .between) := by
    intro mode hmode
    rw [advance_blank hc hmode, List.append_nil]
  exact ha.append_char hgap hb

/-- A mark that nothing can complete stands between two texts as a token of its own. -/
theorem Spells.append_mark {a b : List Char} {ts us : List Token} (ha : Spells a ts)
    (hb : Spells b us) {c : Char} {m : Mark} (hc : lone? c = some m) :
    Spells (a ++ c :: b) (ts ++ .mark m :: us) := by
  have hgap : ∀ mode : Mode, (∀ read, mode ≠ .text read) →
      advance mode c = (mode.close ++ [.mark m], .between) := fun _ => advance_lone hc
  exact ha.append_char hgap hb

theorem spells_keyword (k : Keyword) : Spells k.spelling.toList [.keyword k] := by
  cases k <;> exact ⟨_, _, rfl, rfl, nofun⟩

theorem spells_mark (m : Mark) : Spells m.spelling.toList [.mark m] := by
  cases m <;> exact ⟨_, _, rfl, rfl, nofun⟩

/-- Characters each of which goes on with what is being read. -/
theorem run_continues (mode : List Char → Mode) {goesOn : Char → Prop}
    (h : ∀ read c, goesOn c → advance (mode read) c = ([], mode (c :: read)))
    {text : List Char} (htext : ∀ c ∈ text, goesOn c) (read : List Char) :
    run (mode read) text = ([], mode (text.reverse ++ read)) := by
  induction text generalizing read with
  | nil => rfl
  | cons c rest ih =>
    obtain ⟨hc, hrest⟩ := List.forall_mem_cons.mp htext
    simp [run, h read c hc, ih hrest]

/-! #### Words -/

theorem begin_wordStart {c : Char} (h : isWordStart c = true) : begin c = ([], .word [c]) := by
  have hquote : c ≠ '"' := by
    rintro rfl
    exact absurd h (by decide)
  have hdigit : c.isDigit = false := by
    rw [Bool.eq_false_iff]
    intro hdigit
    have hrange := Char.isDigit_iff_toNat.mp hdigit
    simp only [isWordStart, Bool.or_eq_true, beq_iff_eq] at h
    rcases h with halpha | rfl
    · have hletter := toNat_of_isAlpha halpha
      exact absurd (Nat.le_trans hletter.1 hrange.2) (by decide)
    · exact absurd hdigit (by decide)
  simp [begin, hquote, hdigit, h]

theorem ofWord_of_isName {word : List Char} (h : Line.isName word = true) :
    ofWord word = .name (String.ofList word) := by
  cases word with
  | nil => cases h
  | cons c rest =>
    simp only [Line.isName, Bool.and_eq_true, Bool.not_eq_true'] at h
    have hfind : (Keyword.all.find? fun k => k.spelling.toList = c :: rest) = none := by
      rw [List.find?_eq_none]
      simpa using h.2
    rw [ofWord, hfind]

theorem spells_name {word : List Char} (h : Line.isName word = true) :
    Spells word [.name (String.ofList word)] := by
  have hword := ofWord_of_isName h
  cases word with
  | nil => cases h
  | cons c rest =>
    simp only [Line.isName, Bool.and_eq_true, List.all_eq_true] at h
    obtain ⟨⟨hstart, hrest⟩, -⟩ := h
    have hrun : run (.word [c]) rest = ([], .word (rest.reverse ++ [c])) :=
      run_continues .word (fun read c hc => by simp [advance, hc]) hrest [c]
    refine ⟨[], .word (rest.reverse ++ [c]), ?_, ?_, nofun⟩
    · simp [run, advance, begin_wordStart hstart, hrun]
    · simp [Mode.close, hword]

/-! #### Texts and numbers -/

theorem spells_text {s : String} (h : '"' ∉ s.toList) :
    Spells ('"' :: (s.toList ++ ['"'])) [.text s] := by
  have hinside : ∀ c ∈ s.toList, c ≠ '"' := by
    rintro c hc rfl
    exact h hc
  have hrun : run (.text []) s.toList = ([], .text s.toList.reverse) := by
    have := run_continues .text (fun read c hc => by simp [advance, hc]) hinside []
    rwa [List.append_nil] at this
  refine ⟨[.text s], .between, ?_, rfl, nofun⟩
  simp [run, advance, begin, run_append, hrun, Mode.close]

theorem run_digits {ds : List Char} (h : ∀ c ∈ ds, c.isDigit = true) (read : List Char)
    (pointed : Bool) : run (.number read pointed) ds = ([], .number (ds.reverse ++ read) pointed) :=
  run_continues (Mode.number · pointed) (fun read c hc => by simp [advance, hc]) h read

theorem run_between_digits {ds : List Char} (hne : ds ≠ []) (h : ∀ c ∈ ds, c.isDigit = true) :
    run .between ds = ([], .number ds.reverse false) := by
  cases ds with
  | nil => exact absurd rfl hne
  | cons c ds =>
    obtain ⟨hc, hds⟩ := List.forall_mem_cons.mp h
    have hquote : c ≠ '"' := by
      rintro rfl
      exact absurd hc (by decide)
    simp [run, advance, begin, hquote, hc, run_digits hds]

theorem spells_numeral {text : List Char} {digits : Nat} {exponent : Int}
    (h : Number.Numeral text digits exponent) :
    Spells text [.number (Number.ofDecimal false digits exponent)] := by
  have hdigits : ofDigits text = .number (Number.ofDecimal false digits exponent) := by
    rw [ofDigits, h.read, Option.getD_some]
  cases h with
  | whole hne hds =>
    exact ⟨[], _, run_between_digits hne hds, by simp [Mode.close, hdigits], nofun⟩
  | @pointed ds fraction hne hds hfraction =>
    have hpoint : Char.isDigit '.' = false := rfl
    refine ⟨[], .number (ds ++ '.' :: fraction).reverse true, ?_, ?_, nofun⟩
    · simp [run_append, run_between_digits hne hds, run, advance, hpoint, run_digits hfraction]
    · simp [Mode.close, hdigits]

/-- A number that can be written has a numeral as its text. -/
theorem exists_numeral {n : Number} (h : isWritable (.number n) = true) :
    ∃ digits exponent, Number.Numeral n.toChars digits exponent ∧
      Number.ofDecimal false digits exponent = n := by
  cases n with
  | nan => simp [isWritable] at h
  | infinite negative => simp [isWritable] at h
  | finite negative units hunits =>
    obtain rfl : negative = false := by simpa [isWritable] using h
    simpa [Number.toChars] using Number.numeral_magnitudeChars units hunits

theorem spells_spelling {tok : Token} (h : tok.isWritable = true) : Spells tok.spelling [tok] := by
  cases tok with
  | number n =>
    obtain ⟨digits, exponent, hnumeral, rfl⟩ := exists_numeral h
    exact spells_numeral hnumeral
  | text s => exact spells_text (by simpa [isWritable] using h)
  | name s =>
    have hname := spells_name h
    rwa [String.ofList_toList] at hname
  | keyword k => exact spells_keyword k
  | mark m => exact spells_mark m

/-! ### The characters of what is written -/

/-- A character that is no blank, no quote and no bracket. -/
def isSolid (c : Char) : Bool := !isBlank c && !(['"', '(', ')', '[', ']'].contains c)

/-- A mark that opens or closes a bracket. -/
def isBracket : Token → Bool
  | .mark .leftParen | .mark .rightParen | .mark .leftBracket | .mark .rightBracket => true
  | _ => false

theorem isSolid_of_isWordChar {c : Char} (h : isWordChar c = true) : isSolid c = true := by
  have hblank : isBlank c = false := by
    rw [Bool.eq_false_iff]
    intro hblank
    rw [isWordChar_eq_false_of_isBlank hblank] at h
    cases h
  have hquote : c ∉ ['"', '(', ')', '[', ']'] := by
    intro hmem
    simp only [List.mem_cons, List.not_mem_nil, or_false] at hmem
    rcases hmem with rfl | rfl | rfl | rfl | rfl <;> exact absurd h (by decide)
  simp [isSolid, hblank, hquote]

theorem isSolid_of_numeral {text : List Char} {digits : Nat} {exponent : Int}
    (h : Number.Numeral text digits exponent) : ∀ c ∈ text, isSolid c = true := by
  have hdigit : ∀ c, c.isDigit = true → isSolid c = true := by
    intro c hc
    exact isSolid_of_isWordChar (by simp [isWordChar, Char.isAlphanum, hc])
  intro c hc
  cases h with
  | whole _ hds => exact hdigit c (hds c hc)
  | pointed _ hds hfraction =>
    rcases List.mem_append.mp hc with hc | hc
    · exact hdigit c (hds c hc)
    · rcases List.mem_cons.mp hc with rfl | hc
      · decide
      · exact hdigit c (hfraction c hc)

theorem isWordChar_of_isName {word : List Char} (h : Line.isName word = true) :
    ∀ c ∈ word, isWordChar c = true := by
  cases word with
  | nil => cases h
  | cons c rest =>
    simp only [Line.isName, Bool.and_eq_true, List.all_eq_true] at h
    have hc : isWordChar c = true := by
      have hstart := h.1.1
      simp only [isWordStart, Bool.or_eq_true] at hstart
      rcases hstart with hc | hc <;> simp [isWordChar, Char.isAlphanum, hc]
    exact List.forall_mem_cons.mpr ⟨hc, h.1.2⟩

/-- Only texts and brackets have characters that are not solid. -/
theorem isSolid_spelling {tok : Token} (h : tok.isWritable = true) (htext : ∀ s, tok ≠ .text s)
    (hbracket : tok.isBracket = false) : ∀ c ∈ tok.spelling, isSolid c = true := by
  cases tok with
  | number n =>
    obtain ⟨digits, exponent, hnumeral, -⟩ := exists_numeral h
    exact isSolid_of_numeral hnumeral
  | text s => exact absurd rfl (htext s)
  | name s => exact fun c hc => isSolid_of_isWordChar (isWordChar_of_isName h c hc)
  | keyword k => exact List.all_eq_true.mp (by cases k <;> decide)
  | mark m =>
    refine List.all_eq_true.mp ?_
    cases m <;> first | exact absurd hbracket (by decide) | decide

theorem isBlank_of_isSolid {c : Char} (h : isSolid c = true) : isBlank c = false := by
  simp only [isSolid, Bool.and_eq_true, Bool.not_eq_true'] at h
  exact h.1

theorem tight_spelling {tok : Token} (h : tok.isWritable = true) : Text.Tight tok.spelling := by
  cases tok with
  | text s =>
    -- the quotes are at the ends
    have hquote : isBlank '"' = false := by decide
    simp [Text.Tight, spelling, hquote, List.getLast?_cons]
  | mark m =>
    have hmark : m.spelling.toList.all (fun c => !isBlank c) = true := by cases m <;> decide
    exact Text.tight_of_not_isBlank fun c hc => by simpa using List.all_eq_true.mp hmark c hc
  | number n => exact Text.tight_of_not_isBlank fun c hc => isBlank_of_isSolid (isSolid_spelling h nofun rfl c hc)
  | name s => exact Text.tight_of_not_isBlank fun c hc => isBlank_of_isSolid (isSolid_spelling h nofun rfl c hc)
  | keyword k => exact Text.tight_of_not_isBlank fun c hc => isBlank_of_isSolid (isSolid_spelling h nofun rfl c hc)

/-! ### Rows of tokens -/

theorem written_singleton (tok : Token) : written [tok] = tok.spelling := List.intercalate_singleton

theorem written_cons_cons (tok next : Token) (ts : List Token) :
    written (tok :: next :: ts) = tok.spelling ++ ' ' :: written (next :: ts) := by
  rw [written, List.map_cons, List.map_cons, List.intercalate_cons_cons, List.append_assoc]
  rfl

theorem written_cons (tok : Token) {ts : List Token} (h : ts ≠ []) :
    written (tok :: ts) = tok.spelling ++ ' ' :: written ts := by
  cases ts with
  | nil => exact absurd rfl h
  | cons next ts => exact written_cons_cons tok next ts

/-- **What is written is read back.** -/
theorem spells_written {ts : List Token} (h : ∀ tok ∈ ts, tok.isWritable = true) :
    Spells (written ts) ts := by
  induction ts with
  | nil => exact spells_nil
  | cons tok ts ih =>
    obtain ⟨htok, hts⟩ := List.forall_mem_cons.mp h
    cases ts with
    | nil =>
      rw [written_singleton]
      exact spells_spelling htok
    | cons next ts =>
      rw [written_cons_cons]
      exact (spells_spelling htok).append (ih hts) (c := ' ') rfl

theorem spelling_ne_nil {tok : Token} (h : tok.isWritable = true) : tok.spelling ≠ [] := by
  intro hnil
  have hscan := (spells_spelling h).scan_eq
  rw [hnil] at hscan
  cases hscan

theorem written_ne_nil {ts : List Token} (h : ∀ tok ∈ ts, tok.isWritable = true) (hne : ts ≠ []) :
    written ts ≠ [] := by
  intro hnil
  have hscan := (spells_written h).scan_eq
  rw [hnil] at hscan
  exact hne hscan.symm

theorem tight_written {ts : List Token} (h : ∀ tok ∈ ts, tok.isWritable = true) :
    Text.Tight (written ts) := by
  induction ts with
  | nil => exact ⟨nofun, nofun⟩
  | cons tok ts ih =>
    obtain ⟨htok, hts⟩ := List.forall_mem_cons.mp h
    cases ts with
    | nil =>
      rw [written_singleton]
      exact tight_spelling htok
    | cons next ts =>
      have happend := (tight_spelling htok).append (ih hts) (spelling_ne_nil htok)
        (written_ne_nil hts (List.cons_ne_nil _ _)) [' ']
      rwa [List.append_assoc, List.singleton_append, ← written_cons_cons] at happend

/-- Tokens with a space behind each of them. -/
def spread (ts : List Token) : List Char := ts.flatMap fun tok => tok.spelling ++ [' ']

theorem spread_singleton (tok : Token) : spread [tok] = tok.spelling ++ [' '] := by
  simp [spread]

theorem spread_append (ts us : List Token) : spread (ts ++ us) = spread ts ++ spread us :=
  List.flatMap_append

theorem spread_cons (tok : Token) (ts : List Token) :
    spread (tok :: ts) = tok.spelling ++ ' ' :: spread ts := by
  simp [spread]

theorem written_append (ts : List Token) {us : List Token} (h : us ≠ []) :
    written (ts ++ us) = spread ts ++ written us := by
  induction ts with
  | nil => rfl
  | cons tok ts ih =>
    rw [List.cons_append, written_cons tok (List.append_ne_nil_of_right_ne_nil ts h), ih]
    simp [spread]

theorem spread_eq {ts : List Token} (h : ts ≠ []) : spread ts = written ts ++ [' '] := by
  induction ts with
  | nil => exact absurd rfl h
  | cons tok ts ih =>
    cases ts with
    | nil => simp [spread, written]
    | cons next ts =>
      rw [written_cons_cons, List.append_assoc, List.cons_append, ← ih (List.cons_ne_nil _ _)]
      simp [spread]

/-! #### Spaces at the ends -/

section Trim

variable {ts : List Token} (h : ∀ tok ∈ ts, tok.isWritable = true)
include h

theorem trim_spread (hne : ts ≠ []) : trim (spread ts) = written ts := by
  have htrim : trim ([] ++ written ts ++ [' ']) = written ts :=
    Text.trim_append (List.forall_mem_nil _) (tight_written h) (List.forall_mem_singleton.mpr rfl)
  rwa [List.nil_append, ← spread_eq hne] at htrim

theorem trim_space_written : trim (' ' :: written ts) = written ts := by
  have htrim : trim ([' '] ++ written ts ++ []) = written ts :=
    Text.trim_append (List.forall_mem_singleton.mpr rfl) (tight_written h) (List.forall_mem_nil _)
  rwa [List.append_nil] at htrim

end Trim

end Token
end DeskCheck
