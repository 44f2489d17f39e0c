/-
# Tables as text

Comma-separated tables: one row a line, every line ended by a line feed, with no
quoting.  A reader that trims the text and splits it at line ends and commas gets the
fields back when no field is empty or holds a comma or a blank.

* `TextTable.lines`, `TextTable.trim` : splitting at `\r?\n`, and cutting the blanks of
  both ends;
* `TextTable.text` : the text of a table;
* `TextTable.Plain` : fields that can be told apart;
* `splitFields_line`, `lines_trim_text` : a line and a table are read back.
-/
import Mathlib.Data.List.Basic
import Mathlib.Data.List.DropRight
import Mathlib.Tactic.Basic

namespace TextTable

/-! ## Reading -/

/-- A piece of a text that a line feed follows, without the carriage return before it. -/
def chomp (line : List Char) : List Char :=
  if line.getLast? = some '\r' then line.dropLast else line

/-- `split(/\r?\n/)`: only the last piece has no line feed behind it. -/
def lines (text : List Char) : List (List Char) :=
  let pieces := text.splitOn '\n'
  pieces.dropLast.map chomp ++ pieces.getLast?.toList

/-- The text without the characters of a kind at its ends. -/
def trim (blank : Char → Bool) (text : List Char) : List Char :=
  (text.dropWhile blank).rdropWhile blank

/-- `line.split(',')`. -/
def splitFields (line : List Char) : List (List Char) := line.splitOn ','

/-! ## Writing -/

/-- A row as a line. -/
def line (fields : List (List Char)) : List Char := [','].intercalate fields

/-- The text of a table. -/
def text (rows : List (List (List Char))) : List Char := rows.flatMap fun row => line row ++ ['\n']

/-- A field that can be told from its neighbours: not empty, and without commas and blanks. -/
structure Plain (blank : Char → Bool) (field : List Char) : Prop where
  nonempty : field ≠ []
  noComma : ',' ∉ field
  noBlank : ∀ c ∈ field, blank c = false

/-- A field is checked character by character. -/
theorem plain_of_all {blank : Char → Bool} {field : List Char} (hne : field ≠ [])
    (h : (field.all fun c => !blank c && c != ',') = true) : Plain blank field := by
  have hall : ∀ c ∈ field, blank c = false ∧ c ≠ ',' := by simpa using h
  exact ⟨hne, fun hc => (hall _ hc).2 rfl, fun c hc => (hall c hc).1⟩

/-- A row of such fields. -/
def PlainRow (blank : Char → Bool) (fields : List (List Char)) : Prop :=
  fields ≠ [] ∧ ∀ field ∈ fields, Plain blank field

/-! ## The round trip -/

section RoundTrip

variable {blank : Char → Bool} {fields : List (List Char)}

/-- A line is split into its fields. -/
theorem splitFields_line (h : PlainRow blank fields) : splitFields (line fields) = fields :=
  List.splitOn_intercalate ',' (fun _ hl => (h.2 _ hl).noComma) h.1

theorem line_cons_cons (field next : List Char) (rest : List (List Char)) :
    line (field :: next :: rest) = field ++ ',' :: line (next :: rest) := by
  simp [line, List.intercalate]

/-- What a line is made of. -/
theorem mem_line {c : Char} (hc : c ∈ line fields) : c = ',' ∨ ∃ field ∈ fields, c ∈ field := by
  induction fields with
  | nil => cases hc
  | cons field rest ih =>
      cases rest with
      | nil =>
          right
          simpa [line, List.intercalate] using hc
      | cons next rest =>
          rw [line_cons_cons, List.mem_append, List.mem_cons] at hc
          rcases hc with hc | hc | hc
          · exact .inr ⟨field, List.mem_cons_self, hc⟩
          · exact .inl hc
          · rcases ih hc with h | ⟨other, hother, hc⟩
            · exact .inl h
            · exact .inr ⟨other, List.mem_cons_of_mem _ hother, hc⟩

/-- A line holds no blank. -/
theorem noBlank_line (hcomma : blank ',' = false) (h : PlainRow blank fields) {c : Char}
    (hc : c ∈ line fields) : blank c = false := by
  rcases mem_line hc with rfl | ⟨field, hfield, hc⟩
  · exact hcomma
  · exact (h.2 _ hfield).noBlank c hc

theorem line_ne_nil (h : PlainRow blank fields) : line fields ≠ [] := by
  obtain ⟨hne, hplain⟩ := h
  cases fields with
  | nil => exact absurd rfl hne
  | cons field rest =>
      have hfield := (hplain field List.mem_cons_self).nonempty
      cases rest with
      | nil => simpa [line, List.intercalate] using hfield
      | cons next rest => simp [line_cons_cons, hfield]

theorem chomp_of_notMem {s : List Char} (h : '\r' ∉ s) : chomp s = s := by
  rw [chomp, if_neg]
  intro hlast
  exact h (List.mem_of_getLast? hlast)

/-- A text without a line feed at its end is split into its lines. -/
theorem lines_intercalate {ls : List (List Char)} (hne : ls ≠ []) (hfeed : ∀ l ∈ ls, '\n' ∉ l)
    (hreturn : ∀ l ∈ ls, '\r' ∉ l) : lines (['\n'].intercalate ls) = ls := by
  have hmap : ls.dropLast.map chomp = ls.dropLast := by
    rw [List.map_congr_left fun l hl =>
      chomp_of_notMem (hreturn l (List.dropLast_subset ls hl))]
    exact List.map_id' _
  rw [lines, List.splitOn_intercalate '\n' hfeed hne, hmap, List.getLast?_eq_some_getLast hne]
  exact List.dropLast_append_getLast hne

/-- A table of at least one row is its lines, with a line feed between them and one more at
the end. -/
theorem text_eq {rows : List (List (List Char))} (h : rows ≠ []) :
    text rows = ['\n'].intercalate (rows.map line) ++ ['\n'] := by
  induction rows with
  | nil => exact absurd rfl h
  | cons row rest ih =>
      cases rest with
      | nil => simp [text, List.intercalate]
      | cons next rest =>
          rw [text, List.flatMap_cons, ← text, ih (List.cons_ne_nil _ _)]
          simp [List.intercalate]

/-- A text that starts and ends with a character that is no blank. -/
def Trimmed (blank : Char → Bool) (s : List Char) : Prop :=
  ∃ hne : s ≠ [], blank (s.head hne) = false ∧ blank (s.getLast hne) = false

theorem trimmed_line (hcomma : blank ',' = false) (h : PlainRow blank fields) :
    Trimmed blank (line fields) :=
  ⟨line_ne_nil h, noBlank_line hcomma h (List.head_mem _),
    noBlank_line hcomma h (List.getLast_mem _)⟩

/-- Such texts, with line feeds between them. -/
theorem trimmed_intercalate {ls : List (List Char)} (hne : ls ≠ [])
    (h : ∀ l ∈ ls, Trimmed blank l) : Trimmed blank (['\n'].intercalate ls) := by
  induction ls with
  | nil => exact absurd rfl hne
  | cons l rest ih =>
      obtain ⟨hl, hhead, hlast⟩ := h l List.mem_cons_self
      cases rest with
      | nil => simpa [List.intercalate] using h l List.mem_cons_self
      | cons next rest =>
          obtain ⟨hr, -, hlast'⟩ :=
            ih (List.cons_ne_nil _ _) fun m hm => h m (List.mem_cons_of_mem _ hm)
          have heq : ['\n'].intercalate (l :: next :: rest) =
              l ++ '\n' :: ['\n'].intercalate (next :: rest) := by
            simp [List.intercalate]
          rw [heq]
          refine ⟨by simp [hl], ?_, ?_⟩
          · rwa [List.head_append_of_ne_nil hl]
          · rwa [List.getLast_append_of_ne_nil (by simp) (by simp), List.getLast_cons hr]

/-- A trimmed text loses only the line feed behind it. -/
theorem trim_concat {s : List Char} (hfeed : blank '\n' = true) (h : Trimmed blank s) :
    trim blank (s ++ ['\n']) = s := by
  obtain ⟨hne, hhead, hlast⟩ := h
  have hdrop : (s ++ ['\n']).dropWhile blank = s ++ ['\n'] := by
    cases s with
    | nil => exact absurd rfl hne
    | cons c cs => rw [List.cons_append, List.dropWhile_cons_of_neg (by simpa using hhead)]
  rw [trim, hdrop, List.rdropWhile_concat_pos _ _ _ hfeed, List.rdropWhile_eq_self_iff]
  intro _
  simp [hlast]

/-- **A table is read back line by line.** -/
theorem lines_trim_text {rows : List (List (List Char))} (hcomma : blank ',' = false)
    (hfeed : blank '\n' = true) (hreturn : blank '\r' = true) (hne : rows ≠ [])
    (h : ∀ row ∈ rows, PlainRow blank row) : lines (trim blank (text rows)) = rows.map line := by
  have hblank (c : Char) (hc : blank c = true) : ∀ l ∈ rows.map line, c ∉ l := by
    intro l hl hmem
    obtain ⟨row, hrow, rfl⟩ := List.mem_map.mp hl
    rw [noBlank_line hcomma (h row hrow) hmem] at hc
    cases hc
  have hmap : rows.map line ≠ [] := by simpa using hne
  have htrimmed : Trimmed blank (['\n'].intercalate (rows.map line)) := by
    refine trimmed_intercalate hmap fun l hl => ?_
    obtain ⟨row, hrow, rfl⟩ := List.mem_map.mp hl
    exact trimmed_line hcomma (h row hrow)
  rw [text_eq hne, trim_concat hfeed htrimmed]
  exact lines_intercalate hmap (hblank '\n' hfeed) (hblank '\r' hreturn)

end RoundTrip

end TextTable
