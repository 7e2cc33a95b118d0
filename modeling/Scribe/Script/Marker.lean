import Scribe.Script.Call

set_option autoImplicit false

/-! # Zones, markers and templates

A template is a prepared document fragment with three insertion zones. Each zone is found in the
document by its marker, which may be spelled in several ways. -/

namespace Scribe

/-! ## Zones -/

/-- An insertion zone of a template. -/
inductive Zone where
  | before
  | inside
  | after
  deriving DecidableEq, Repr

namespace Zone

/-- Every zone, in the order in which zones are entered. -/
def all : List Zone := [.before, .inside, .after]

/-- The place of a zone in that order. -/
def rank : Zone → Nat
  | .before => 0
  | .inside => 1
  | .after => 2

/-- The glyph of the marker and its full-width form. -/
def glyphs : Zone → Char × Char
  | .before => ('@', '＠')
  | .inside => ('#', '＃')
  | .after => ('&', '＆')

/-- The canonical marker. -/
def marker (z : Zone) : Text := List.replicate 3 z.glyphs.1

/-- The spellings under which the marker may appear in a document: narrow, full-width, and both
    with single spaces between the glyphs. -/
def markerVariants (z : Zone) : List Text :=
  let (narrow, wide) := z.glyphs
  [ [narrow, narrow, narrow], [wide, wide, wide], [narrow, ' ', narrow, ' ', narrow],
    [wide, ' ', wide, ' ', wide] ]

/-- The zone whose marker a text is, surrounding white space aside. -/
def ofMarker? (s : Text) : Option Zone := all.find? fun z => z.markerVariants.contains s.trim

end Zone

/-- What a request to focus a placeholder asks for. -/
inductive Placeholder where
  | zone (zone : Zone)
  /-- Any other marker text, kept as written. -/
  | custom (marker : Text)
  deriving DecidableEq, Repr

/-- The placeholder that a marker text names. -/
def Placeholder.ofMarker (s : Text) : Placeholder :=
  match Zone.ofMarker? s with
  | some z => .zone z
  | none => .custom s

/-- The line that requests a zone. -/
def Zone.focusLine (z : Zone) : Text := renderCall .focusPlaceholder z.marker

/-! ## Templates -/

/-- How a template treats its inside zone. -/
inductive TemplateFlavor where
  /-- The template brings a framed list container of its own. -/
  | framed
  /-- A plain container; the marker behind it is cleaned on insertion. -/
  | plain
  deriving DecidableEq, Repr

/-- The known template fragments. -/
inductive Template where
  | header
  | box
  | boxWhite
  deriving DecidableEq, Repr

namespace Template

/-- Every known template. -/
def all : List Template := [.header, .box, .boxWhite]

/-- The file that holds the fragment. -/
def fileName : Template → Text
  | .header => "header.hwp".toList
  | .box => "box.hwp".toList
  | .boxWhite => "box_white.hwp".toList

/-- The file extension of fragments. -/
def extension : Text := ".hwp".toList

/-- What follows the last directory separator of a path. -/
def baseName (s : Text) : Text :=
  (s.reverse.takeWhile fun c => c != '/' && c != '\\').reverse

/-- The template that a script means: directories, case and a missing extension do not matter. -/
def ofName? (s : Text) : Option Template :=
  let base := (baseName s.trim).toLower
  let file := if extension.isSuffixOf base then base else base ++ extension
  all.find? fun t => t.fileName = file

/-- The flavor of a template. -/
def flavor : Template → TemplateFlavor
  | .header => .framed
  | .box | .boxWhite => .plain

/-- The zones whose markers the fragment carries. -/
def zones (_ : Template) : List Zone := Zone.all

end Template

end Scribe
