import CorpusQuery.Error.Detailed
import CorpusQuery.Message
import CorpusQuery.Text.Pieces
import CorpusQuery.View.Row

/-!
# Output of commands

How commands show rows, messages and errors. A table has a line for the columns and a line for each
row, with tabs between the cells.
-/

namespace CorpusQuery.Cli

/-- Lines, each with its end. -/
def unlines (lines : List String) : String := String.join (lines.map (· ++ "\n"))

/-- A cell of a table; one that is missing is empty. -/
def cellText : Value → String
  | .float x => if x.isNaN then "" else Value.text (.float x)
  | value => value.text

/-- A line of a table. -/
def tableLine (cells : List String) : String := String.intercalate "\t" cells

/-- Rows as a table. -/
def tableText : List Row → String
  | [] => unlines ["No rows."]
  | first :: rest =>
    unlines (tableLine first.keys ::
      (first :: rest).map fun row => tableLine (row.cells.map fun cell => cellText cell.2))

/-- A JSON value on lines of its own. -/
def jsonText (json : Json) : String := unlines [json.pretty]

/-- The lines that show a message: its severity and text, and then its details. -/
def messageText (m : Message) : String :=
  unlines ((m.severity.name ++ ": " ++ m.text) :: (Text.lines m.details).map ("  " ++ ·))

/-- The line that shows why a command failed. -/
def errorText (e : Error) : String := unlines ["Error: " ++ e.detailed]

end CorpusQuery.Cli
