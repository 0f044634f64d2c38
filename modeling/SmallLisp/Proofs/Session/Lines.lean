import SmallLisp.Proofs.Text.Utf8
import SmallLisp.Session.Script

/-! The lines of a script. They are cut before they are decoded, and the byte they are cut at is
in no text that has no line feed, so every line of an encoded text is cut as it was. -/
namespace SmallLisp.Session

/-- The whole is cut after each mark and nowhere else. What is left after the last mark is a part
too, unless it is empty. -/
inductive CutAfter {α : Type} (mark : α) : List α → List (List α) → Prop where
  | nil : CutAfter mark [] []
  | last {part : List α} : mark ∉ part → part ≠ [] → CutAfter mark part [part]
  | next {part rest : List α} {parts : List (List α)} : mark ∉ part → CutAfter mark rest parts →
      CutAfter mark (part ++ [mark] ++ rest) ((part ++ [mark]) :: parts)

section

variable {α : Type} {mark a : α} {whole rest first : List α} {parts : List (List α)}

theorem CutAfter.flatten (cut : CutAfter mark whole parts) : parts.flatten = whole := by
  induction cut with
  | nil => rfl
  | last => exact List.flatten_singleton
  | next _ _ ih => rw [List.flatten_cons, ih]

theorem CutAfter.grow (other : a ≠ mark) (cut : CutAfter mark rest (first :: parts)) :
    CutAfter mark (a :: rest) ((a :: first) :: parts) := by
  cases cut with
  | last within => exact .last (List.not_mem_cons_of_ne_of_not_mem other.symm within) nofun
  | next within cut => exact .next (List.not_mem_cons_of_ne_of_not_mem other.symm within) cut

theorem exists_cutAfter [DecidableEq α] (mark : α) (whole : List α) :
    ∃ parts, CutAfter mark whole parts := by
  induction whole with
  | nil => exact ⟨[], .nil⟩
  | cons a rest ih =>
    obtain ⟨parts, cut⟩ := ih
    by_cases same : a = mark
    · subst same
      exact ⟨[a] :: parts, .next List.not_mem_nil cut⟩
    · cases cut with
      | nil => exact ⟨[[a]], .last (by simpa using Ne.symm same) nofun⟩
      | last within filled => exact ⟨_, CutAfter.grow same (.last within filled)⟩
      | next within cut => exact ⟨_, CutAfter.grow same (.next within cut)⟩

end

open Text.Utf8 (encode)

variable {line : Bytes} {text : String}

theorem splitLines_ne_nil {bytes : Bytes} (filled : bytes ≠ []) : splitLines bytes ≠ [] := by
  cases bytes with
  | nil => exact absurd rfl filled
  | cons byte rest =>
    rw [splitLines]
    split
    · nofun
    · cases splitLines rest <;> nofun

theorem splitLines_cons {byte : UInt8} (other : byte ≠ lineFeed) {first : Bytes}
    {rest more : Bytes} {lines : List Bytes} (split : splitLines (more ++ rest) = first :: lines) :
    splitLines (byte :: more ++ rest) = (byte :: first) :: lines := by
  rw [List.cons_append, splitLines, if_neg other, split]

theorem splitLines_line (within : lineFeed ∉ line) (rest : Bytes) :
    splitLines (line ++ [lineFeed] ++ rest) = (line ++ [lineFeed]) :: splitLines rest := by
  induction line with
  | nil => rfl
  | cons byte more ih =>
    obtain ⟨other, within⟩ := List.ne_and_not_mem_of_not_mem_cons within
    exact splitLines_cons other.symm (ih within)

/-- The lines up to a line feed are cut as they are without what follows. -/
theorem splitLines_append (first rest : Bytes) :
    splitLines (first ++ [lineFeed] ++ rest) = splitLines (first ++ [lineFeed]) ++ splitLines rest := by
  induction first with
  | nil => rfl
  | cons byte more ih =>
    simp only [List.cons_append, splitLines]
    by_cases feed : byte = lineFeed
    · rw [if_pos feed, if_pos feed, ih, List.cons_append]
    · rw [if_neg feed, if_neg feed, ih]
      cases ended : splitLines (more ++ [lineFeed]) with
      | nil => exact absurd ended (splitLines_ne_nil (by simp))
      | cons line lines => rfl

theorem splitLines_last (within : lineFeed ∉ line) (filled : line ≠ []) :
    splitLines line = [line] := by
  induction line with
  | nil => exact absurd rfl filled
  | cons byte more ih =>
    obtain ⟨other, within⟩ := List.ne_and_not_mem_of_not_mem_cons within
    rw [splitLines, if_neg other.symm]
    cases more with
    | nil => rfl
    | cons next more => rw [ih within nofun]

theorem CutAfter.splitLines_eq {bytes : Bytes} {lines : List Bytes}
    (cut : CutAfter lineFeed bytes lines) : splitLines bytes = lines := by
  induction cut with
  | nil => rfl
  | last within filled => exact splitLines_last within filled
  | @next line rest _ within _ ih => rw [splitLines_line within rest, ih]

theorem splitLines_eq_iff {bytes : Bytes} {lines : List Bytes} :
    splitLines bytes = lines ↔ CutAfter lineFeed bytes lines := by
  constructor
  · rintro rfl
    obtain ⟨lines, cut⟩ := exists_cutAfter lineFeed bytes
    rwa [cut.splitLines_eq]
  · exact CutAfter.splitLines_eq

theorem encode_append (s t : String) : encode (s ++ t) = encode s ++ encode t := by
  simp [encode, String.toList_append]

theorem encode_ofList (chars : List Char) :
    encode (String.ofList chars) = chars.flatMap String.utf8EncodeChar := by
  rw [encode, String.toList_ofList]

theorem encode_eq_nil (empty : encode text = []) : text = "" := by
  have decoded := Text.Utf8.decode_encode text
  rw [empty] at decoded
  exact (Except.ok.inj decoded).symm

theorem lineFeed_not_mem_encode (within : '\n' ∉ text.toList) : lineFeed ∉ encode text := by
  intro member
  obtain ⟨c, inside, byte⟩ := List.mem_flatMap.mp member
  have code := Text.Utf8.eq_of_mem_encodeChar byte (by decide)
  have same : c = '\n' := Char.toNat_inj.mp code
  exact within (same ▸ inside)

/-- A line of a text is cut off with its line feed. -/
theorem splitLines_encode (within : '\n' ∉ text.toList) (rest : Bytes) :
    splitLines (encode (text ++ "\n") ++ rest) = encode (text ++ "\n") :: splitLines rest := by
  rw [encode_append]
  exact splitLines_line (lineFeed_not_mem_encode within) rest

/-- The last line has no line feed; there is none if it is empty. -/
theorem splitLines_encode_last (within : '\n' ∉ text.toList) :
    splitLines (encode text) = if text = "" then [] else [encode text] := by
  split
  · next empty => rw [empty]; rfl
  · next filled =>
    exact splitLines_last (lineFeed_not_mem_encode within) fun empty => filled (encode_eq_nil empty)

/-- The bytes are cut after their line feeds just where the characters are. -/
theorem cutAfter_bytes {chars : List Char} {rows : List (List Char)}
    (cut : CutAfter '\n' chars rows) :
    CutAfter lineFeed (chars.flatMap String.utf8EncodeChar)
      (rows.map fun row => row.flatMap String.utf8EncodeChar) := by
  have free {row : List Char} (within : '\n' ∉ row) :
      lineFeed ∉ row.flatMap String.utf8EncodeChar := by
    rw [← encode_ofList]
    exact lineFeed_not_mem_encode (by rwa [String.toList_ofList])
  induction cut with
  | nil => exact .nil
  | @last row within filled =>
    refine .last (free within) fun empty => filled ?_
    rw [← encode_ofList] at empty
    rw [← String.toList_ofList (l := row), encode_eq_nil empty]
    rfl
  | @next row rest _ within _ ih =>
    rw [List.map_cons, List.flatMap_append, List.flatMap_append]
    exact .next (free within) ih

theorem cutAfter_encode {lines : List String}
    (cut : CutAfter '\n' text.toList (lines.map String.toList)) :
    CutAfter lineFeed (encode text) (lines.map encode) := by
  have bytes := cutAfter_bytes cut
  rwa [List.map_map] at bytes

theorem exists_lines (text : String) :
    ∃ lines : List String, CutAfter '\n' text.toList (lines.map String.toList) := by
  obtain ⟨rows, cut⟩ := exists_cutAfter '\n' text.toList
  refine ⟨rows.map String.ofList, ?_⟩
  have shown : (rows.map String.ofList).map String.toList = rows := by
    rw [List.map_map]
    exact List.map_id'' (fun _ => String.toList_ofList) rows
  rwa [shown]

end SmallLisp.Session
