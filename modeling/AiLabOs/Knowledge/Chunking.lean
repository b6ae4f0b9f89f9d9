import AiLabOs.Base.Text
import Mathlib.Data.List.Basic
import Mathlib.Data.Int.Notation

/-!
# Knowledge: chunking

A document is split into chunks by one of six strategies. Each character of the document carries its
position, which no test of the code reads, so that a chunk shows which occurrences it covers; a
character that a strategy inserts has no position.

The loops run for at most as many turns as they are given; a loop that has not ended by then has no
result.

## Main definitions

* `Cell`, `mark`: characters with their positions
* `fixedLoop`, `windowLoop`, `packLoop`, `markdownLoop`, `splitLoop`: the loops
* `Strategy`, `Strategy.chunk`: the strategies
-/

namespace Knowledge

/-! ## Texts -/

/-- A character, and its position in the document if it comes from there. -/
structure Cell where
  char : Char
  origin : Option ℕ
deriving DecidableEq, Repr

/-- A document. -/
def mark (text : List Char) : List Cell := text.zipIdx.map fun entry => ⟨entry.1, some entry.2⟩

/-- What a strategy inserts. -/
def inserted (text : String) : List Cell := text.toList.map fun c => ⟨c, none⟩

/-- `c.isspace()`. -/
def Cell.blank (c : Cell) : Bool := Text.isSpace c.char

/-- `text.strip()`. -/
def strip (text : List Cell) : List Cell :=
  ((text.dropWhile Cell.blank).reverse.dropWhile Cell.blank).reverse

/-- `not text.strip()`. -/
def blank (text : List Cell) : Bool := text.all Cell.blank

/-- A bound of a slice: from the end if it is negative. -/
def bound (length : ℕ) (i : ℤ) : ℕ := if i < 0 then (i + length).toNat else min i.toNat length

/-- `text[start:end]`. -/
def slice (text : List Cell) (start finish : ℤ) : List Cell :=
  (text.take (bound text.length finish)).drop (bound text.length start)

/-- The pieces, with a character before the first one. -/
def consHead (c : Cell) : List (List Cell) → List (List Cell)
  | [] => [[c]]
  | piece :: pieces => (c :: piece) :: pieces

/-- `DocumentChunk`. The identifiers of the chunk and of its document are left out. -/
structure Chunk where
  index : ℕ
  content : List Cell
  tokenCount : ℕ
deriving DecidableEq, Repr

/-- The text of a chunk. -/
def Chunk.text (chunk : Chunk) : String := String.ofList (chunk.content.map Cell.char)

/-- The chunks of a nested strategy are appended, with new indices. -/
def appendAll (chunks sub : List Chunk) : List Chunk :=
  sub.foldl (fun chunks chunk => chunks ++ [{ chunk with index := chunks.length }]) chunks

/-! ## Windows -/

section Windows

variable (size : ℕ) (overlap : ℤ) (text : List Cell)

/-- The end of a window. -/
def windowEnd (start : ℤ) : ℤ := min (start + size) text.length

/-- The chunk of a window. -/
def window (start : ℤ) (index : ℕ) : Chunk :=
  let content := slice text start (windowEnd size text start)
  ⟨index, content, content.length⟩

/-- The loop of `FixedLengthChunker.chunk`. -/
def fixedLoop : ℕ → ℤ → ℕ → Option (List Chunk)
  | 0, _, _ => none
  | fuel + 1, start, index =>
    if start < text.length then
      (fixedLoop fuel (if windowEnd size text start < text.length then
        windowEnd size text start - overlap else windowEnd size text start) (index + 1)).map
        fun chunks => window size text start index :: chunks
    else some []

/-- The loop of `TokenWindowChunker.chunk`. -/
def windowLoop : ℕ → ℤ → ℕ → Option (List Chunk)
  | 0, _, _ => none
  | fuel + 1, start, index =>
    if start < text.length then
      if text.length ≤ windowEnd size text start then some [window size text start index]
      else
        (windowLoop fuel (windowEnd size text start - overlap) (index + 1)).map
          fun chunks => window size text start index :: chunks
    else some []

end Windows

/-! ## Sentences and paragraphs -/

/-- `[。.!?！？\n]`. -/
def terminator (c : Char) : Bool := ['。', '.', '!', '?', '！', '？', '\n'].contains c

/-- `re.split(r'(?<=[。.!?！？\n])\s*', text)`: a piece ends after a terminator, and the white space
that follows is dropped. The empty pieces between two matches, which are dropped next, are left
out. -/
def sentencePieces : Bool → List Cell → List (List Cell)
  | _, [] => [[]]
  | skipping, c :: text =>
    if skipping && c.blank then sentencePieces true text
    else if terminator c.char then [c] :: sentencePieces true text
    else consHead c (sentencePieces false text)

/-- The sentences that are not blank. -/
def sentences (text : List Cell) : List (List Cell) :=
  (sentencePieces false text).filter fun piece => !blank piece

/-- `text.split(sep)`: the parts, each with the separator before it. Of a separator, `skip`
characters are still to come. -/
def splitFrom (sep : List Char) : ℕ → List Cell → List Cell → List Cell →
    List (List Cell × List Cell)
  | _, glue, part, [] => [(glue, part)]
  | skip + 1, glue, part, c :: text => splitFrom sep skip (glue ++ [c]) part text
  | 0, glue, part, c :: text =>
    if sep.isPrefixOf ((c :: text).map Cell.char) then
      (glue, part) :: splitFrom sep (sep.length - 1) [c] [] text
    else splitFrom sep 0 glue (part ++ [c]) text

/-- `text.split(sep)`, for a separator that is not empty. -/
def splitOn (sep : List Char) (text : List Cell) : List (List Cell × List Cell) :=
  splitFrom sep 0 [] [] text

/-- The paragraphs that are not blank, stripped. -/
def paragraphs (text : List Cell) : List (List Cell) :=
  (((splitOn ['\n', '\n'] text).map Prod.snd).filter fun part => !blank part).map strip

/-- The loop of `SentenceChunker.chunk` and of `ParagraphChunker.chunk`. -/
def packLoop (size : ℕ) (joint : List Cell) : List Cell → ℕ → List (List Cell) → List Chunk
  | current, index, [] =>
    if blank current then [] else [⟨index, strip current, current.length⟩]
  | current, index, part :: parts =>
    if size < current.length + part.length ∧ current ≠ [] then
      ⟨index, strip current, current.length⟩ :: packLoop size joint part (index + 1) parts
    else packLoop size joint (if current = [] then part else current ++ joint ++ part) index parts

/-! ## Sections -/

/-- `#{1,6}\s`. -/
def headerAt (text : List Cell) : Bool :=
  let level := (text.takeWhile fun c => c.char = '#').length
  1 ≤ level && level ≤ 6 && ((text.drop level).head?.any Cell.blank)

/-- `re.split(r'(?=^#{1,6}\s)', text, flags=re.MULTILINE)`. -/
def sectionPieces : Bool → List Cell → List (List Cell)
  | _, [] => [[]]
  | lineStart, c :: text =>
    if lineStart && headerAt (c :: text) then [] :: consHead c (sectionPieces (c.char = '\n') text)
    else consHead c (sectionPieces (c.char = '\n') text)

/-- The sections that are not blank, stripped. -/
def sections (text : List Cell) : List (List Cell) :=
  ((sectionPieces true text).filter fun piece => !blank piece).map strip

/-- The overlap of the windows of a long section: the default of `FixedLengthChunker`. -/
def defaultOverlap : ℤ := 50

/-- The loop of `MarkdownChunker.chunk`. -/
def markdownLoop (fuel size : ℕ) : ℕ → List Chunk → List (List Cell) → Option (List Chunk)
  | _, chunks, [] => some chunks
  | index, chunks, piece :: pieces =>
    if piece.length ≤ size then
      markdownLoop fuel size (index + 1) (chunks ++ [⟨index, piece, piece.length⟩]) pieces
    else
      (fixedLoop size defaultOverlap piece fuel 0 0).bind fun sub =>
        markdownLoop fuel size (index + 1) (appendAll chunks sub) pieces

/-! ## Separators in order -/

/-- The batch with the next part. -/
def candidate (current glue part : List Cell) : List Cell :=
  if current = [] then part else current ++ glue ++ part

/-- The loop of `RecursiveChunker._split`. `sub` splits a batch with the next separators. -/
def splitLoop (size : ℕ) (sub : List Cell → Option (List Chunk)) :
    List Chunk → List Cell → List (List Cell × List Cell) → Option (List Chunk)
  | chunks, current, [] =>
    if current = [] then some chunks else (sub current).map (appendAll chunks)
  | chunks, current, (glue, part) :: parts =>
    if size < (candidate current glue part).length then
      if current = [] then splitLoop size sub chunks part parts
      else (sub current).bind fun s => splitLoop size sub (appendAll chunks s) part parts
    else splitLoop size sub chunks (candidate current glue part) parts

/-- `_split`, with the first separator and the next ones. -/
def split (fuel size : ℕ) (overlap : ℤ) (sep : List Char) :
    List (List Char) → List Cell → Option (List Chunk)
  | [], text => fixedLoop size overlap text fuel 0 0
  | next :: seps, text =>
    if sep = [] then fixedLoop size overlap text fuel 0 0
    else splitLoop size (split fuel size overlap next seps) [] [] (splitOn sep text)

/-- `["\n\n", "\n", ". ", "。", " ", ""]`: the first separator and the next ones. -/
def defaultSeparators : List Char × List (List Char) :=
  (['\n', '\n'], [['\n'], ['.', ' '], ['。'], [' '], []])

/-- `separators or [...]`. -/
def separatorsOf : List (List Char) → List Char × List (List Char)
  | [] => defaultSeparators
  | sep :: seps => (sep, seps)

/-! ## Strategies -/

/-- The strategies with their parameters. The overlap of `SentenceChunker` and `ParagraphChunker` is
not read. -/
inductive Strategy where
  | fixedLength (chunkSize : ℕ) (overlap : ℤ)
  | sentence (chunkSize : ℕ)
  | paragraph (chunkSize : ℕ)
  | markdown (chunkSize : ℕ)
  | recursive (chunkSize : ℕ) (overlap : ℤ) (separators : List (List Char))
  | tokenWindow (windowSize : ℕ) (overlap : ℤ)

/-- `chunk`, of a document. -/
def Strategy.chunk (strategy : Strategy) (fuel : ℕ) (text : List Cell) : Option (List Chunk) :=
  match strategy with
  | .fixedLength size overlap => fixedLoop size overlap text fuel 0 0
  | .sentence size => some (packLoop size (inserted " ") [] 0 (sentences text))
  | .paragraph size => some (packLoop size (inserted "\n\n") [] 0 (paragraphs text))
  | .markdown size => markdownLoop fuel size 0 [] (sections text)
  | .recursive size overlap separators =>
    split fuel size overlap (separatorsOf separators).1 (separatorsOf separators).2 text
  | .tokenWindow size overlap => windowLoop size overlap text fuel 0 0

/-- The parameters that are meant: a size of at least one, and an overlap below it. -/
def Strategy.Proper : Strategy → Prop
  | .fixedLength size overlap | .recursive size overlap _ | .tokenWindow size overlap =>
    1 ≤ size ∧ 0 ≤ overlap ∧ overlap < size
  | .sentence size | .paragraph size | .markdown size => 1 ≤ size

/-- The chunk sizes of a strategy. -/
def Strategy.size : Strategy → ℕ
  | .fixedLength size _ | .recursive size _ _ | .tokenWindow size _ | .sentence size
  | .paragraph size | .markdown size => size

end Knowledge
