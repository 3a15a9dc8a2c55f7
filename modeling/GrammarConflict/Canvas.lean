import GrammarConflict.ErrorKind
import GrammarConflict.SignedIndex
import GrammarConflict.Stride
import GrammarConflict.Text.Blank
import GrammarConflict.Text.Quoted

/-!
# Canvases

A canvas is a grid of characters that grows where it is written on; beyond what it holds it is
blank.  Its rows may differ in length.  Strokes know about crossings: where a vertical and a
horizontal stroke meet, or a stroke meets a corner, there is a corner.

A drawing (`Draw`) changes a canvas and may fail.  What it did before it failed stays on the canvas;
this includes the room that the failing cell was given.  Rows and columns are `SignedIndex`es.

A canvas is a list of rows, and a row a list of cells.  No list takes `lengthBound` members or more:
lists are not made so long, and do not grow so long.  There is one limit for all lists, and up to it
memory is taken to suffice.
-/

namespace GrammarConflict

/-- A grid of characters. -/
structure Canvas where
  rows : Array (Array Char)

/-- Why a drawing fails. -/
inductive CanvasError where
  /-- A cell takes one character. -/
  | notOneCharacter (text : String)
  | noSuchRow (miss : SignedIndex.Miss)
  | noSuchColumn (miss : SignedIndex.Miss)
  | noPlaceInRow (miss : SignedIndex.Miss)
  /-- A number of blanks is no word of 64 bits. -/
  | tooWide
  /-- There is no room for so many rows or cells. -/
  | noRoom

/-- The kind of a canvas error. -/
def CanvasError.kind : CanvasError → ErrorKind
  | .notOneCharacter _ => .assertion
  | .noSuchRow _ | .noSuchColumn _ | .noPlaceInRow _ => .index
  | .tooWide => .overflow
  | .noRoom => .memory

/-- The words for a canvas error. -/
def CanvasError.message : CanvasError → String
  | .notOneCharacter text => "Cannot put " ++ Text.quote text ++ " in a single cell"
  | .noSuchRow miss => miss.message
  | .noSuchColumn miss => miss.message
  | .noPlaceInRow miss => miss.storeMessage
  | .tooWide => SignedIndex.notAWordMessage
  | .noRoom => ""

/-- A change of a canvas that may fail. -/
abbrev Draw :=
  EStateM CanvasError Canvas

/-- The character of a vertical stroke. -/
def vertical : Char := '|'

/-- The character of a horizontal stroke. -/
def horizontal : Char := '-'

/-- The character where strokes meet. -/
def corner : Char := '+'

namespace Canvas

/-- The first number that is too large for the length of a list. -/
def lengthBound : Int := Nat.pow 2 60

/-- A blank canvas; a negative size stands for none. -/
def blank (rows columns : Int) : Canvas :=
  if rows ≤ 0 then ⟨#[]⟩ else ⟨Array.replicate rows.toNat (Array.replicate columns.toNat ' ')⟩

/-- A blank canvas, unless it has rows and there is no room for them. -/
def ofSize (rows columns : Int) : Except CanvasError Canvas :=
  if rows ≤ 0 then .ok (blank rows columns)
  else if !SignedIndex.fitsWord columns then .error .tooWide
  else if lengthBound ≤ max rows columns then .error .noRoom
  else .ok (blank rows columns)

/-! ### Cells -/

/-- Adds members at the end until an index that counts from the start is met. -/
def cover {α : Type} (fill : α) (xs : Array α) (i : Int) : Array α :=
  xs ++ Array.replicate ((i + 1).toNat - xs.size) fill

/-- The character in a cell. -/
def read (row column : Int) : Draw Char := fun canvas =>
  if canvas.rows.size ≤ row then .ok ' ' canvas
  else match (SignedIndex.place? canvas.rows.size row).bind (canvas.rows[·]?) with
    | none => .error (.noSuchRow (SignedIndex.missOf row)) canvas
    | some cells =>
      if cells.size ≤ column then .ok ' ' canvas
      else match (SignedIndex.place? cells.size column).bind (cells[·]?) with
        | none => .error (.noSuchColumn (SignedIndex.missOf column)) canvas
        | some c => .ok c canvas

/-- Why a row of the given length cannot be made to hold a column, if it cannot.  The blanks that it
lacks are made first. -/
def growthError? (length : Nat) (column : Int) : Option CanvasError :=
  if column < length then none
  else if SignedIndex.wordBound ≤ column + 1 - length then some .tooWide
  else if lengthBound ≤ column + 1 then some .noRoom
  else none

/-- Sets a cell, after giving it room.  Missing rows are added one by one, as far as there is room
for them. -/
def put (row column : Int) (c : Char) : Draw Unit := fun canvas =>
  if canvas.rows.size ≤ row ∧ lengthBound ≤ row + 1 then
    .error .noRoom ⟨cover #[] canvas.rows (lengthBound - 2)⟩
  else
    let rows := cover #[] canvas.rows row
    match SignedIndex.place? rows.size row with
    | none => .error (.noSuchRow (SignedIndex.missOf row)) ⟨rows⟩
    | some r =>
      match growthError? (rows.getD r #[]).size column with
      | some error => .error error ⟨rows⟩
      | none =>
        let rows := rows.modify r (cover ' ' · column)
        match SignedIndex.place? (rows.getD r #[]).size column with
        | none => .error (.noPlaceInRow (SignedIndex.missOf column)) ⟨rows⟩
        | some k => .ok () ⟨rows.modify r (·.setIfInBounds k c)⟩

/-- Sets a cell to a text, which has to be one character. -/
def set (row column : Int) (text : String) : Draw Unit :=
  match text.toList with
  | [c] => put row column c
  | _ => throw (.notOneCharacter text)

/-- Writes texts into the cells of a row, one each, from a column on. -/
def writeCells (row column : Int) : List String → Draw Unit
  | [] => pure ()
  | text :: rest => do
    set row column text
    writeCells row (column + 1) rest

/-- Writes characters into the cells of a row, from a column on. -/
def writeChars (row column : Int) : List Char → Draw Unit
  | [] => pure ()
  | c :: rest => do
    put row column c
    writeChars row (column + 1) rest

/-! ### Strokes -/

/-- What a vertical stroke leaves in a cell. -/
def crossDown (c : Char) : Char :=
  if c = horizontal ∨ c = corner then corner else vertical

/-- What a horizontal stroke leaves in a cell. -/
def crossAlong (c : Char) : Char :=
  if c = vertical ∨ c = corner then corner else horizontal

/-- Changes the character in a cell. -/
def cross (change : Char → Char) (row column : Int) : Draw Unit := do
  put row column (change (← read row column))

/-- A vertical stroke through the given rows. -/
def strokeDown (rows : Stride) (column : Int) : Draw Unit :=
  rows.forM fun row => cross crossDown row column

/-- A horizontal stroke through the given columns. -/
def strokeAlong (row : Int) (columns : Stride) : Draw Unit :=
  columns.forM fun column => cross crossAlong row column

/-! ### Text -/

/-- The rows with the blanks at their ends left out. -/
def lines (canvas : Canvas) : List String :=
  canvas.rows.toList.map fun cells => String.ofList (Text.trimEnd cells.toList)

/-- The rows as one text. -/
def text (canvas : Canvas) : String :=
  "\n".intercalate canvas.lines

end Canvas

end GrammarConflict
