import Scribe.Settings.Environment
import Scribe.Yaml.Grammar

set_option autoImplicit false

/-! # Settings from a file

A settings file is a mapping of setting names, all of which may be absent. Names that are no
settings are passed over, but no setting may be given twice. -/

namespace Scribe.Settings

/-! ## Values -/

/-- The fields of a record: by name, or one after the other. -/
def fields? (names : List Text) (graph : Yaml.Graph) (node : Yaml.Node) :
    Option (List (Text × Yaml.Node)) :=
  match graph.target node with
  | .mapping entries => do
    let entries ← entries.mapM fun (key, value) => (graph.target key).text?.map (·, value)
    let known := entries.filter fun (name, _) => names.elem name
    if names.all fun name => (known.filter fun entry => entry.1 = name).length ≤ 1 then some known
    else none
  | .sequence items => if items.length ≤ names.length then some (names.zip items) else none
  | node => if node.isEmpty then some [] else none

/-- The value of a field, or the initial one when it is absent. -/
def field? {α : Type} (fields : List (Text × Yaml.Node)) (name : Text)
    (read : Yaml.Node → Option α) (initial : α) : Option α :=
  match fields.lookup name with
  | none => some initial
  | some node => read node

/-- Digits with a leading zero are no number. -/
def isPadded (digits : Text) : Bool :=
  digits.length > 1 && digits.head? == some '0' && digits.all Char.isDigit

/-- The number below `2 ^ 64` that a text writes. -/
def writtenCount? (text : Text) : Option Nat := do
  let unsigned := match text with
    | '+' :: s => s
    | s => s
  let number ← match unsigned with
    | '0' :: 'x' :: c :: s => Decimal.digitsIn? 16 (c :: s)
    | '0' :: 'o' :: c :: s => Decimal.digitsIn? 8 (c :: s)
    | '0' :: 'b' :: c :: s => Decimal.digitsIn? 2 (c :: s)
    | _ => if isPadded unsigned then none else Decimal.digits? unsigned
  if number < UInt64.size then return number
  none

/-- The decimal that a text writes. -/
def writtenDecimal? (text : Text) : Option Float := do
  let infinite := [".inf".toList, ".Inf".toList, ".INF".toList]
  let unsigned := match text with
    | '+' :: s => s
    | s => s
  let signedTwice := text != unsigned && unsigned.head?.any fun c => c == '+' || c == '-'
  if infinite.elem unsigned then return 1.0 / 0.0
  else if infinite.any fun s => '-' :: s == text then return -1.0 / 0.0
  else if [".nan".toList, ".NaN".toList, ".NAN".toList].elem text then return 0.0 / 0.0
  else if signedTwice then none
  else (Decimal.float? unsigned).filter Float.isFinite

/-- The text that a value stands for. -/
def textOf? (graph : Yaml.Graph) (node : Yaml.Node) : Option Text := (graph.target node).text?

/-- The count that a value stands for. -/
def countOf? (graph : Yaml.Graph) (node : Yaml.Node) : Option Nat :=
  ((graph.target node).numeral? "tag:yaml.org,2002:int".toList).bind writtenCount?

/-- The decimal that a value stands for. -/
def decimalOf? (graph : Yaml.Graph) (node : Yaml.Node) : Option Float :=
  ((graph.target node).numeral? "tag:yaml.org,2002:float".toList).bind writtenDecimal?

/-- The texts of a sequence of scalars. -/
def textsOf? (graph : Yaml.Graph) (node : Yaml.Node) : Option (List Text) :=
  match graph.target node with
  | .sequence items => items.mapM (textOf? graph)
  | node => if node.isEmpty then some [] else none

/-! ## Records -/

/-- The converter that a value describes. -/
def converterOf? (graph : Yaml.Graph) (node : Yaml.Node) : Option ConverterSettings := do
  let program := "program".toList
  let args := "args".toList
  let timeoutMs := "timeout_ms".toList
  let fields ← fields? [program, args, timeoutMs] graph node
  let d : ConverterSettings := {}
  return {
    program := ← field? fields program (textOf? graph) d.program
    args := ← field? fields args (textsOf? graph) d.args
    timeoutMs := ← field? fields timeoutMs (countOf? graph) d.timeoutMs }

/-- The settings that a file describes. -/
def ofGraph? (graph : Yaml.Graph) : Option Settings := do
  let templateDir := "template_dir".toList
  let maxWorkers := "max_workers".toList
  let equationFont := "equation_font".toList
  let equationSizePt := "equation_size_pt".toList
  let boxFontSizePt := "box_font_size_pt".toList
  let converter := "converter".toList
  let fields ← fields?
    [templateDir, maxWorkers, equationFont, equationSizePt, boxFontSizePt, converter]
    graph graph.root
  let d : Settings := {}
  return {
    templateDir := ← field? fields templateDir (textOf? graph) d.templateDir
    maxWorkers := ← field? fields maxWorkers (countOf? graph) d.maxWorkers
    equationFont := ← field? fields equationFont (textOf? graph) d.equationFont
    equationSizePt := ← field? fields equationSizePt (decimalOf? graph) d.equationSizePt
    boxFontSizePt := ← field? fields boxFontSizePt (decimalOf? graph) d.boxFontSizePt
    converter := ← field? fields converter (converterOf? graph) d.converter }

/-- The settings of a file, given its contents or the reason why there are none. -/
def ofFile (path : Text) (contents : Except Text Text) : Except SettingsError Settings :=
  match contents with
  | .error reason => .error (.unreadable path reason)
  | .ok text =>
    match (Yaml.Graph.ofText? text).bind ofGraph? with
    | some settings => .ok settings.clamp
    | none => .error (.malformed path)

end Scribe.Settings
