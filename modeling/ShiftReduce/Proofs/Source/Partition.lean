import ShiftReduce.Proofs.Source.LongestMatch

/-!
# The items of a text

The spans of the items divide a text: what lies between them is blank, nothing in them is, and they
neither overlap nor change places. The text of a span says what its item is.
-/

namespace ShiftReduce

open Decimal

/-! ## Bytes -/

/-- The bytes of a text in UTF-8. -/
def bytes (text : List Char) : List UInt8 := text.flatMap String.utf8EncodeChar

/-- Space, tab, carriage return, line feed and form feed. -/
def isBlankByte (b : UInt8) : Bool := [0x20, 0x09, 0x0d, 0x0a, 0x0c].contains b

@[simp] theorem bytes_append (front back : List Char) :
    bytes (front ++ back) = bytes front ++ bytes back := by
  simp [bytes]

@[simp] theorem length_bytes (text : List Char) : (bytes text).length = byteLength text := by
  induction text with
  | nil => rfl
  | cons c text ih =>
    have hsplit : bytes (c :: text) = String.utf8EncodeChar c ++ bytes text := rfl
    rw [hsplit, List.length_append, ih, String.length_utf8EncodeChar, byteLength]

theorem byteLength_pos {text : List Char} (h : text ≠ []) : 0 < byteLength text := by
  obtain ⟨c, text, rfl⟩ := List.exists_cons_of_ne_nil h
  have hpos := c.utf8Size_pos
  rw [byteLength]
  omega

theorem toUTF8_eq (source : String) : source.toUTF8 = (bytes source.toList).toByteArray := by
  rw [String.toUTF8_eq_toByteArray, ← String.utf8Encode_toList]
  rfl

/-- A character below 128 is one byte, and no byte of any other is below 128. -/
theorem toNat_of_mem_utf8EncodeChar {b : UInt8} {c : Char} (h : b ∈ String.utf8EncodeChar c) :
    b.toNat = c.toNat ∨ 128 ≤ b.toNat ∧ 128 ≤ c.toNat := by
  have hnat : c.val.toNat = c.toNat := rfl
  unfold String.utf8EncodeChar at h
  simp only [hnat] at h
  split_ifs at h <;> simp only [List.mem_cons, List.not_mem_nil, or_false] at h
  · subst h
    left
    rw [UInt8.toNat_ofNat']
    omega
  · right
    rcases h with rfl | rfl <;> rw [UInt8.toNat_ofNat'] <;> omega
  · right
    rcases h with rfl | rfl | rfl <;> rw [UInt8.toNat_ofNat'] <;> omega
  · right
    rcases h with rfl | rfl | rfl | rfl <;> rw [UInt8.toNat_ofNat'] <;> omega

theorem isBlank_iff {c : Char} :
    isBlank c = true ↔ c.toNat = 32 ∨ c.toNat = 9 ∨ c.toNat = 13 ∨ c.toNat = 10 ∨ c.toNat = 12 := by
  simp only [isBlank, List.contains_iff_mem, List.mem_cons, List.not_mem_nil, or_false,
    ← Char.toNat_inj]
  rfl

theorem isBlankByte_iff {b : UInt8} :
    isBlankByte b = true ↔
      b.toNat = 32 ∨ b.toNat = 9 ∨ b.toNat = 13 ∨ b.toNat = 10 ∨ b.toNat = 12 := by
  simp only [isBlankByte, List.contains_iff_mem, List.mem_cons, List.not_mem_nil, or_false,
    ← UInt8.toNat_inj]
  rfl

theorem isBlankByte_of_mem {b : UInt8} {c : Char} (h : b ∈ String.utf8EncodeChar c) :
    isBlankByte b = isBlank c := by
  rw [Bool.eq_iff_iff, isBlankByte_iff, isBlank_iff]
  rcases toNat_of_mem_utf8EncodeChar h with heq | ⟨hb, hc⟩
  · rw [heq]
  · omega

theorem isBlankByte_of_mem_bytes {b : UInt8} {text : List Char} {blank : Bool}
    (htext : ∀ c ∈ text, isBlank c = blank) (h : b ∈ bytes text) : isBlankByte b = blank := by
  obtain ⟨c, hc, hb⟩ := List.mem_flatMap.mp h
  rw [isBlankByte_of_mem hb]
  exact htext c hc

/-! ## Spans -/

def Item.Spans (item : Item) (i : Nat) : Prop := item.start ≤ i ∧ i < item.stop

/-- What the items of a text at the byte `offset` have to do with its bytes. -/
structure Tiles (offset : Nat) (text : List Char) (items : List Item) : Prop where
  start_ge : ∀ item ∈ items, offset ≤ item.start
  start_lt : ∀ item ∈ items, item.start < item.stop
  ordered : items.Pairwise fun a b => a.stop ≤ b.start
  blank_iff : ∀ i b, (bytes text)[i]? = some b →
    (isBlankByte b = true ↔ ∀ item ∈ items, ¬ item.Spans (offset + i))

variable {offset : Nat} {text piece rest : List Char} {items : List Item} {lexeme? : Option Lexeme}

theorem Tiles.blanks (hpiece : ∀ c ∈ piece, isBlank c = true)
    (h : Tiles (offset + byteLength piece) rest items) : Tiles offset (piece ++ rest) items where
  start_ge item hitem := by
    have hstart := h.start_ge item hitem
    omega
  start_lt := h.start_lt
  ordered := h.ordered
  blank_iff i b hb := by
    by_cases hi : i < byteLength piece
    · rw [bytes_append, List.getElem?_append_left (by simpa using hi)] at hb
      have hblank := isBlankByte_of_mem_bytes hpiece (List.mem_of_getElem? hb)
      refine iff_of_true hblank ?_
      rintro item hitem ⟨hstart, -⟩
      have hafter := h.start_ge item hitem
      omega
    · rw [bytes_append, List.getElem?_append_right (by simpa using hi), length_bytes] at hb
      have hrest := h.blank_iff _ b hb
      have hindex : offset + byteLength piece + (i - byteLength piece) = offset + i := by omega
      rwa [hindex] at hrest

theorem Tiles.item (hne : piece ≠ []) (hpiece : ∀ c ∈ piece, isBlank c = false)
    (h : Tiles (offset + byteLength piece) rest items) :
    Tiles offset (piece ++ rest) (Item.of offset piece lexeme? :: items) where
  start_ge := by
    refine List.forall_mem_cons.mpr ⟨Nat.le_refl _, ?_⟩
    intro item hitem
    have hstart := h.start_ge item hitem
    omega
  start_lt := by
    refine List.forall_mem_cons.mpr ⟨?_, h.start_lt⟩
    have hpos := byteLength_pos hne
    simp only [Item.of]
    omega
  ordered := List.pairwise_cons.mpr ⟨h.start_ge, h.ordered⟩
  blank_iff i b hb := by
    rw [List.forall_mem_cons]
    by_cases hi : i < byteLength piece
    · rw [bytes_append, List.getElem?_append_left (by simpa using hi)] at hb
      have hblank := isBlankByte_of_mem_bytes hpiece (List.mem_of_getElem? hb)
      have hspans : (Item.of offset piece lexeme?).Spans (offset + i) := by
        simp only [Item.Spans, Item.of]
        omega
      simp [hblank, hspans]
    · rw [bytes_append, List.getElem?_append_right (by simpa using hi), length_bytes] at hb
      have hrest := h.blank_iff _ b hb
      have hindex : offset + byteLength piece + (i - byteLength piece) = offset + i := by omega
      have hpast : ¬ (Item.of offset piece lexeme?).Spans (offset + i) := by
        simp only [Item.Spans, Item.of]
        omega
      rw [hindex] at hrest
      simp [hrest, hpast]

theorem Lexes.tiles (h : Lexes offset text items) : Tiles offset text items := by
  induction h with
  | done => exact ⟨nofun, nofun, .nil, by simp [bytes]⟩
  | @matched offset pattern piece rest items hlongest _ ih =>
    have hfits := hlongest.fits
    cases pattern with
    | blanks => exact ih.blanks hfits.2
    | digits => exact ih.item hfits.1 fun c hc => isBlank_of_isDigit (hfits.2 c hc)
    | punctuation =>
      obtain ⟨c, rfl, hsome⟩ := hfits
      obtain ⟨lexeme, hlexeme⟩ := Option.isSome_iff_exists.mp hsome
      have hblank := (Lexeme.ofPunctuation?_cases hlexeme).1
      exact ih.item (List.cons_ne_nil _ _) (by simpa using hblank)
  | @unmatched offset c rest items hnone _ ih =>
    obtain ⟨hblank, -⟩ := Pattern.of?_eq_none_iff.mp (of?_eq_none_of_not_matches hnone)
    change Tiles offset ([c] ++ rest) _
    exact ih.item (List.cons_ne_nil _ _) (by simpa using hblank)

/-! ## Single items -/

/-- A run of digits with no digit on either side. -/
structure DigitRun (before run after : List Char) : Prop where
  nonempty : run ≠ []
  digits : ∀ c ∈ run, c.isDigit = true
  starts : ∀ c ∈ before.getLast?, c.isDigit = false
  ends : ∀ c ∈ after.head?, c.isDigit = false

/-- What a piece of a text is read as: the piece, what stands before and after it, the byte at which
it starts, and its content. -/
inductive ReadAs : (before piece after : List Char) → Nat → Except SourceError Lexeme → Prop
  | punctuation {before c after start lexeme} (h : Lexeme.ofPunctuation? c = some lexeme) :
      ReadAs before [c] after start (.ok lexeme)
  | number {before run after start n} (hrun : DigitRun before run after)
      (hvalue : n.toInt = (value run : Int)) : ReadAs before run after start (.ok (.number n))
  | oversized {before run after start} (hrun : DigitRun before run after)
      (hvalue : 0x7fffffffffffffff < value run) :
      ReadAs before run after start (.error (.unreadable start (String.ofList run)))
  | other {before c after start} (hblank : isBlank c = false) (hdigit : c.isDigit = false)
      (hpunctuation : Lexeme.ofPunctuation? c = none) :
      ReadAs before [c] after start (.error (.unreadable start (String.ofList [c])))

/-- The item is read from a piece of the text, whose bytes are its span. -/
def Item.Reads (item : Item) (text : List Char) : Prop :=
  ∃ before piece after, text = before ++ piece ++ after ∧ item.start = byteLength before ∧
    item.stop = byteLength (before ++ piece) ∧ ReadAs before piece after item.start item.content

/-- No run of digits goes on from the first text to the second. -/
def Parted (before text : List Char) : Prop :=
  (∀ c ∈ before.getLast?, c.isDigit = false) ∨ Delimits text

theorem parted_append {before : List Char} (hne : piece ≠ [])
    (hpiece : ∀ c ∈ piece, c.isDigit = false) : Parted (before ++ piece) rest := by
  left
  intro c hc
  apply hpiece
  rw [List.getLast?_append_of_ne_nil _ hne] at hc
  exact List.mem_of_getLast? hc

theorem Item.reads_of {before : List Char} (hoffset : offset = byteLength before)
    (h : ReadAs before piece rest offset (Item.of offset piece lexeme?).content) :
    (Item.of offset piece lexeme?).Reads (before ++ (piece ++ rest)) := by
  refine ⟨before, piece, rest, (List.append_assoc _ _ _).symm, hoffset, ?_, h⟩
  rw [byteLength_append, ← hoffset]
  rfl

theorem DigitRun.readAs {before run after : List Char} (h : DigitRun before run after)
    (offset : Nat) :
    ReadAs before run after offset (Item.of offset run (Lexeme.ofDigits? run)).content := by
  by_cases hrange : value run < 0x8000000000000000
  · have hread : Lexeme.ofDigits? run = some (.number (Int64.ofNat (value run))) := by
      simp only [Lexeme.ofDigits?]
      rw [if_pos hrange]
    rw [hread]
    exact .number h (Int64.toInt_ofNat_of_lt hrange)
  · have hread : Lexeme.ofDigits? run = none := by
      simp only [Lexeme.ofDigits?]
      rw [if_neg hrange]
    rw [hread]
    exact .oversized h (by omega)

theorem Lexes.reads (h : Lexes offset text items) {before : List Char}
    (hoffset : offset = byteLength before) (hparted : Parted before text) :
    ∀ item ∈ items, item.Reads (before ++ text) := by
  induction h generalizing before with
  | done => exact nofun
  | @matched offset pattern piece rest items hlongest _ ih =>
    have hfits := hlongest.fits
    have hrest (hparted' : Parted (before ++ piece) rest) :
        ∀ item ∈ items, item.Reads (before ++ (piece ++ rest)) := by
      rw [← List.append_assoc]
      exact ih (by rw [byteLength_append, hoffset]) hparted'
    cases pattern with
    | blanks =>
      exact hrest (parted_append hfits.1 fun c hc => isDigit_of_isBlank (hfits.2 c hc))
    | digits =>
      have hdelimits := hlongest.delimits
      have hrun : DigitRun before piece rest := by
        refine ⟨hfits.1, hfits.2, ?_, hdelimits⟩
        rcases hparted with hbefore | hdigit
        · exact hbefore
        · obtain ⟨c, run, rfl⟩ := List.exists_cons_of_ne_nil hfits.1
          have hfirst := hdigit c rfl
          rw [hfits.2 c List.mem_cons_self] at hfirst
          cases hfirst
      refine List.forall_mem_cons.mpr ⟨?_, hrest (.inr hdelimits)⟩
      exact Item.reads_of hoffset (hrun.readAs offset)
    | punctuation =>
      obtain ⟨c, rfl, hsome⟩ := hfits
      obtain ⟨lexeme, hlexeme⟩ := Option.isSome_iff_exists.mp hsome
      have hdigit := (Lexeme.ofPunctuation?_cases hlexeme).2
      refine List.forall_mem_cons.mpr ⟨?_, hrest (parted_append (by simp) (by simpa using hdigit))⟩
      apply Item.reads_of hoffset
      simp only [List.head?_cons, Option.bind_some, hlexeme]
      exact .punctuation hlexeme
  | @unmatched offset c rest items hnone _ ih =>
    obtain ⟨hblank, hdigit, hpunctuation⟩ :=
      Pattern.of?_eq_none_iff.mp (of?_eq_none_of_not_matches hnone)
    refine List.forall_mem_cons.mpr ⟨?_, ?_⟩
    · have hread : ReadAs before [c] rest offset (Item.of offset [c] none).content :=
        .other hblank hdigit hpunctuation
      exact Item.reads_of hoffset hread
    · have hparted' : Parted (before ++ [c]) rest :=
        parted_append (by simp) (by simpa using hdigit)
      have hrest := ih (by simp [byteLength, hoffset]) hparted'
      rwa [List.append_assoc] at hrest

/-! ## Whole texts -/

/-- The items divide the text: what is outside their spans is blank, and nothing in them is. -/
structure Partition (source : String) (items : List Item) : Prop where
  start_lt : ∀ item ∈ items, item.start < item.stop
  ordered : items.Pairwise fun a b => a.stop ≤ b.start
  reads : ∀ item ∈ items, item.Reads source.toList
  blank_iff : ∀ i (h : i < source.toUTF8.size),
    isBlankByte source.toUTF8[i] = true ↔ ∀ item ∈ items, ¬ item.Spans i

theorem Lexes.partition {source : String} (h : Lexes 0 source.toList items) :
    Partition source items where
  start_lt := h.tiles.start_lt
  ordered := h.tiles.ordered
  reads := by
    have hparted : Parted [] source.toList := .inl nofun
    exact h.reads rfl hparted
  blank_iff i hi := by
    have hbyte : (bytes source.toList)[i]? = some source.toUTF8[i] := by
      simp only [toUTF8_eq, List.size_toByteArray] at hi
      simp only [toUTF8_eq, List.getElem_toByteArray, List.getElem?_eq_getElem hi]
    have htiles := h.tiles.blank_iff i _ hbyte
    rwa [Nat.zero_add] at htiles

/-- To read a text by the longest match leaves no choice, it is what a scan does, and the items divide
the text. -/
theorem scan_partitions (source : String) :
    (∀ items, Lexes 0 source.toList items ↔ items = scan source) ∧
      Partition source (scan source) :=
  ⟨fun _ => lexes_iff, (lexes_scanFrom 0 source.toList).partition⟩

end ShiftReduce
