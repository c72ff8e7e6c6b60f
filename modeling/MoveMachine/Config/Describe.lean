import MoveMachine.Config.Basic

set_option autoImplicit false

namespace MoveMachine

open Text

def CellValue.describe : CellValue → String
  | .literal value => Inline.wrap "Literal" value.describe
  | .computed trigger => Inline.wrap "Computed" trigger.describe

def Block.describe : Block → String
  | .items values => Inline.wrap "Items" (Inline.list (values.map Literal.describe))
  | .generated _ => "Generated(..)"

def CellConfig.describe (cell : CellConfig) : String :=
  Inline.record "CellConfig"
    [("symbols", Inline.list (cell.symbols.map Quoted.ofString)),
      ("value", Inline.optional (cell.value.map CellValue.describe)),
      ("values", Inline.optional (cell.values.map Block.describe)),
      ("onread", Inline.optional (cell.onRead.map ReadTrigger.describe)),
      ("onwrite", Inline.optional
        (cell.onWrite.map fun triggers => Inline.list (triggers.map WriteTrigger.describe)))]

def Config.describe (config : Config) : String :=
  Inline.record "Config"
    [("cells", Inline.map (config.toList.map fun entry =>
      (Decimal.ofAddress entry.1, entry.2.describe)))]

end MoveMachine
