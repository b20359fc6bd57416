import PluginLint.Document.Header

/-!
# Documents

A document opens with a header block when it starts with the delimiter and the delimiter occurs
again; the next occurrence closes the block, wherever it stands. What follows is the body, without
blanks around it. A document without a header block is all body.
-/
namespace PluginLint

/-- A document split into header and body. -/
structure Document where
  header : Header
  body : Text
  /-- the line of the closing delimiter, zero without a header block -/
  headerEnd : Nat
  /-- how many lines of the document come before the first line of the body -/
  bodyOffset : Nat
  deriving DecidableEq, Repr

namespace Document

/-- What opens and closes a header block. -/
def delimiter : Text := ['-', '-', '-']

/-- The document that is all body. -/
def bare (content : Text) : Document := ⟨.empty, content, 0, 0⟩

/-- The text between the delimiters and the text after them. -/
def sections? (content : Text) : Option (Text × Text) :=
  if delimiter.isPrefixOf content then Text.cut? delimiter (content.drop delimiter.length)
  else none

/-- The document with a given header text and the text after its closing delimiter. -/
def ofSections (block after : Text) : Document :=
  let headerEnd := Text.newlines block + 1
  let first := 1 + Text.newlines (Text.leadingBlanks block)
  { header := Header.read first (Text.trim block)
    body := Text.trim after
    headerEnd := headerEnd
    bodyOffset := headerEnd - 1 + Text.newlines (Text.leadingBlanks after) }

/-- Splits a document. -/
def parse (content : Text) : Document :=
  match sections? content with
  | some (block, after) => ofSections block after
  | none => bare content

/-- The line of the document on which a line of the body stands, both counted from one. -/
def lineOfBody (d : Document) (bodyLine : Nat) : Nat := d.bodyOffset + bodyLine

end Document
end PluginLint
