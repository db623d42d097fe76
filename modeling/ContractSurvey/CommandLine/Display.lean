import ContractSurvey.Comparison.Family
import ContractSurvey.Comparison.Insight

/-!
# CommandLine — Display

What is shown of a profile and of a comparison: lines of text, a panel, a table.  Colours are
written into the text in brackets, and what is shown is the text as it stands.  What would show a
number that has no text cannot be shown.
-/

namespace ContractSurvey.CommandLine

/-- One thing that is shown. -/
inductive Shown where
  | text (body : String) (style : Option String)
  | panel (body title border : String)
  | table (title : String) (columns : List String) (rows : List (List String))
  deriving DecidableEq, Repr

/-- All texts of what is shown. -/
def Shown.texts : Shown → List String
  | .text body _ => [body]
  | .panel body title _ => [title, body]
  | .table title columns rows => title :: columns ++ rows.flatten

/-- The lines of what is shown, for a screen without colours. -/
def Shown.lines : Shown → List String
  | .text body _ => [body]
  | .panel body title _ => [title, body]
  | .table title columns rows => title :: (columns :: rows).map (" | ".intercalate ·)

def Shown.toJson : Shown → Json
  | .text body style =>
    .object ([("text", .text body)] ++ (style.map fun s => ("style", Json.text s)).toList)
  | .panel body title border =>
    .object [("panel", .text body), ("title", .text title), ("border_style", .text border)]
  | .table title columns rows =>
    .object
      [("table", .text title), ("columns", .ofTexts columns), ("rows", .array (rows.map .ofTexts))]

/-- A line of text without a style of its own. -/
def line (body : String) : Shown := .text body none

/-- A line in one colour. -/
def coloured (colour body : String) : Shown :=
  line ("[" ++ colour ++ "]" ++ body ++ "[/" ++ colour ++ "]")

/-! ### Profiles -/

/-- A quantity with its thousands set apart if it is whole. -/
def groupedQuantity : Option Quantity → Except QuantityError String
  | some (.whole n) => (grouped n).mapError .digits
  | q => Quantity.shown q

def profilePanel (p : Profile) : Except QuantityError Shown := do
  let size ← groupedQuantity p.size
  let candidates ← Quantity.shown p.candidates
  let complexity ← Quantity.shown p.complexity
  return .panel
    ("[bold]" ++ p.title ++ "[/bold]\n" ++
      "地址: " ++ p.address ++ "\n" ++
      "大小: " ++ size ++ " bytes | " ++
      "函数: " ++ toString p.functionCount ++ " / " ++ candidates ++ " 候选\n" ++
      "复杂度: " ++ complexity ++ "/100 (" ++ p.levelTitle ++ ")")
    "合约分析" "cyan"

def patternTable (ps : List Pattern) : Shown :=
  .table "识别出的函数" ["Selector", "Function", "Category", "Confidence"]
    (ps.map fun p => [p.selector, p.name, p.category.label, p.confidence.fixed 2])

/-- A standard, green when it is followed in full, with the functions that are missing. -/
def complianceLine (c : Compliance) : Except QuantityError Shown :=
  let colour := if c.percent = some (.whole 100) then "green" else "yellow"
  (Quantity.shown c.percent).map fun percent =>
    line
      ("[" ++ colour ++ "]" ++ c.standard ++ ": " ++ percent ++ "%[/" ++ colour ++ "]" ++
        (if c.missing.isEmpty then ""
         else " [dim]缺少: " ++ ", ".intercalate c.missing ++ "[/dim]"))

/-- A line with some names, if there are any. -/
def namesLine (colour label : String) (names : List String) : List Shown :=
  if names.isEmpty then [] else [coloured colour (label ++ ": " ++ ", ".intercalate names)]

/-- Things that are shown as they are. -/
def plainly (shown : List Shown) : List (Except QuantityError Shown) := shown.map .ok

def profileDisplay (p : Profile) : List (Except QuantityError Shown) :=
  [profilePanel p] ++
    plainly (if p.patterns.isEmpty then [] else [patternTable p.patterns]) ++
    p.standards.map complianceLine ++
    plainly
      ((match p.proxyKind with
        | some k => [coloured "yellow" ("代理: " ++ k.label)]
        | none => []) ++
        namesLine "green" "安全特性" p.security ++ namesLine "dim" "Gas优化" p.gas ++
        namesLine "red" "敏感操作码" p.opcodeFlags)

/-! ### Comparisons -/

def similarityTable (ss : List Similarity) : Shown :=
  .table "合约相似度" ["Contract A", "Contract B", "Similarity", "Shared"]
    (ss.map fun s =>
      [Address.short s.first 4, Address.short s.second 4, s.percent.fixed 2 ++ "%",
       toString s.shared.length])

def relationshipLine (r : Relationship) : Shown :=
  line
    ("[magenta]" ++ r.kind.label ++ "[/magenta] (" ++ r.confidence.fixed 2 ++ "): " ++
      r.description)

/-- A family with its number, counted from one. -/
def familyLine (family : List Profile) (place : Nat) : Shown :=
  line
    ("[cyan]家族 " ++ toString (place + 1) ++ ":[/cyan] " ++
      ", ".intercalate (family.map (·.title)))

def insightLine (i : Insight) : Shown :=
  coloured "dim"
    ("平均相似度 " ++ i.average.text ++ "% | 最高 " ++ i.highest.text ++ "% | 代理合约 " ++
      toString i.proxies ++ " 个")

/-- The profiles of a comparison in a few lines each, with an empty line behind each. -/
def summaryDisplay (c : Comparison) : List (Except QuantityError Shown) :=
  c.profiles.flatMap fun p => [p.summary.map fun body => .text body (some "dim"), .ok (line "")]

def pairDisplay (c : Comparison) : List Shown :=
  [similarityTable c.similarities] ++ c.relationships.map relationshipLine

def groupDisplay (c : Comparison) (familyThreshold : Binary64) : List Shown :=
  (c.families familyThreshold).zipIdx.map (fun (family, place) => familyLine family place) ++
    [insightLine (Insight.of c)]

end ContractSurvey.CommandLine
