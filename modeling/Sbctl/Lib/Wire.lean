import Sbctl.Lib.Base64
import Sbctl.Lib.Spelling
import Sbctl.Lib.Traverse

/-!
# Text on the wire

A message is a list of header fields, an empty line and a body, in lines that
end with CRLF. A long body is cut into lines of one length.

* `readMessage_print`: fields and body lines are read back, whatever stands in
  them, as long as no carriage return does.
-/

namespace Wire

open Text

def crlf : List Char := ['\r', '\n']

/-- The lines of a text; one that lacks its end counts unless it is empty. -/
def lines : List Char → List (List Char)
  | [] => []
  | '\r' :: '\n' :: rest => [] :: lines rest
  | c :: rest =>
    match lines rest with
    | [] => [[c]]
    | line :: more => (c :: line) :: more

theorem lines_line {line : List Char} (h : '\r' ∉ line) (rest : List Char) :
    lines (line ++ crlf ++ rest) = line :: lines rest := by
  induction line with
  | nil => rfl
  | cons c cs ih =>
    have hcs : '\r' ∉ cs := fun hmem => h (List.mem_cons_of_mem _ hmem)
    rw [List.cons_append, List.cons_append, lines, ih hcs]
    intro _ hcr _
    exact h (hcr ▸ List.mem_cons_self)

theorem lines_flatMap {pieces : List (List Char)} (h : ∀ piece ∈ pieces, '\r' ∉ piece)
    (rest : List Char) :
    lines (pieces.flatMap (· ++ crlf) ++ rest) = pieces ++ lines rest := by
  induction pieces with
  | nil => rfl
  | cons piece pieces ih =>
    obtain ⟨hpiece, hpieces⟩ := List.forall_mem_cons.mp h
    rw [List.flatMap_cons, List.append_assoc, lines_line hpiece, ih hpieces, List.cons_append]

/-! ## Header fields -/

def printField (field : List Char × List Char) : List Char := field.1 ++ ':' :: ' ' :: field.2

/-- A field as its name and its value without the space before it. -/
def readField (line : List Char) : Option (List Char × List Char) :=
  (splitOnce ':' line).map fun field =>
    (field.1, (stripPrefix [' '] field.2).getD field.2)

/-- The fields of a message and the lines of its body. -/
def readMessage (text : List Char) : Option (List (List Char × List Char) × List (List Char)) := do
  let fields ← ((lines text).takeWhile (!·.isEmpty)).mapM readField
  return (fields, ((lines text).dropWhile (!·.isEmpty)).drop 1)

theorem readField_print {field : List Char × List Char} (h : ':' ∉ field.1) :
    readField (printField field) = some field := by
  have hstrip : stripPrefix [' '] (' ' :: field.2) = some field.2 := stripPrefix_append [' '] field.2
  rw [readField, printField, splitOnce_append h, Option.map_some]
  dsimp only
  rw [hstrip, Option.getD_some]

theorem printField_ne_nil (field : List Char × List Char) : printField field ≠ [] := by
  simp [printField]

theorem takeWhile_lines {pieces : List (List Char)} (h : ∀ piece ∈ pieces, piece ≠ [])
    (rest : List (List Char)) :
    (pieces ++ [] :: rest).takeWhile (!·.isEmpty) = pieces ∧
      (pieces ++ [] :: rest).dropWhile (!·.isEmpty) = [] :: rest := by
  induction pieces with
  | nil => exact ⟨rfl, rfl⟩
  | cons piece pieces ih =>
    obtain ⟨hpiece, hpieces⟩ := List.forall_mem_cons.mp h
    obtain ⟨htake, hdrop⟩ := ih hpieces
    have hkept : (!piece.isEmpty) = true := by simpa using hpiece
    constructor
    · rw [List.cons_append, List.takeWhile_cons, if_pos hkept, htake]
    · rw [List.cons_append, List.dropWhile_cons, if_pos hkept, hdrop]

theorem readMessage_print {fields : List (List Char × List Char)} {body : List (List Char)}
    (hname : ∀ field ∈ fields, ':' ∉ field.1) (hline : ∀ field ∈ fields, '\r' ∉ printField field)
    (hbody : ∀ line ∈ body, '\r' ∉ line) :
    readMessage ((fields.map printField).flatMap (· ++ crlf) ++ (crlf ++ body.flatMap (· ++ crlf))) =
      some (fields, body) := by
  have hlines : lines ((fields.map printField).flatMap (· ++ crlf) ++
      (crlf ++ body.flatMap (· ++ crlf))) = fields.map printField ++ [] :: body := by
    have hlast := lines_flatMap hbody []
    have hempty := lines_line (List.not_mem_nil (a := '\r')) (body.flatMap (· ++ crlf))
    rw [List.append_nil, lines, List.append_nil] at hlast
    rw [lines_flatMap (List.forall_mem_map.mpr hline)]
    rw [List.nil_append] at hempty
    rw [hempty, hlast]
  obtain ⟨htake, hdrop⟩ := takeWhile_lines
    (List.forall_mem_map.mpr fun field _ => printField_ne_nil field) body
  have hread : (fields.map printField).mapM readField = some fields := by
    rw [List.mapM_map]
    have h := (@Traverse.mapM_eq_some_map _ _ (readField ∘ printField) id fields).mpr
      fun field hfield => readField_print (hname field hfield)
    rwa [List.map_id] at h
  rw [readMessage, hlines, htake, hdrop, hread]
  rfl

/-! ## Pieces of one length -/

section
variable {α : Type}

def chunksFrom (n : Nat) : Nat → List α → List (List α)
  | _, [] => []
  | 0, _ :: _ => []
  | fuel + 1, x :: xs => (x :: xs).take n :: chunksFrom n fuel ((x :: xs).drop n)

/-- Pieces of `n` items, the last of which may be shorter. -/
def chunks (n : Nat) (xs : List α) : List (List α) := chunksFrom n xs.length xs

theorem flatten_chunksFrom {n : Nat} (hn : 0 < n) {fuel : Nat} {xs : List α}
    (h : xs.length ≤ fuel) : (chunksFrom n fuel xs).flatten = xs := by
  induction fuel generalizing xs with
  | zero =>
    rw [List.eq_nil_of_length_eq_zero (Nat.le_zero.mp h)]
    rfl
  | succ fuel ih =>
    cases xs with
    | nil => rfl
    | cons x xs =>
      have hrest : ((x :: xs).drop n).length ≤ fuel := by
        rw [List.length_drop]
        rw [List.length_cons] at h ⊢
        omega
      rw [chunksFrom, List.flatten_cons, ih hrest, List.take_append_drop]

theorem flatten_chunks {n : Nat} (hn : 0 < n) (xs : List α) : (chunks n xs).flatten = xs :=
  flatten_chunksFrom hn (Nat.le_refl _)

theorem length_of_mem_chunksFrom {n fuel : Nat} {xs piece : List α}
    (h : piece ∈ chunksFrom n fuel xs) : piece.length ≤ n := by
  induction fuel generalizing xs with
  | zero => cases xs <;> cases h
  | succ fuel ih =>
    cases xs with
    | nil => cases h
    | cons x xs =>
      rcases List.mem_cons.mp h with rfl | h
      · exact List.length_take_le n _
      · exact ih h

theorem length_of_mem_chunks {n : Nat} {xs piece : List α} (h : piece ∈ chunks n xs) :
    piece.length ≤ n :=
  length_of_mem_chunksFrom h

/-- Pieces with a line end between them, and one at the end. -/
theorem intercalate_flatMap (sep : List α) {pieces : List (List α)} (h : pieces ≠ []) :
    sep.intercalate pieces ++ sep = pieces.flatMap (· ++ sep) := by
  induction pieces with
  | nil => exact absurd rfl h
  | cons piece pieces ih =>
    cases pieces with
    | nil => simp [List.intercalate]
    | cons next pieces =>
      have hrest := ih (List.cons_ne_nil _ _)
      rw [List.flatMap_cons, ← hrest, List.intercalate_cons_cons]
      simp only [List.append_assoc]

end

end Wire
