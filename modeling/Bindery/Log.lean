import Bindery.Diagnostic
import Bindery.Text.Hex

/-!
The log of a run: short notes on what was met, in the order in which it was met.
-/

namespace Bindery

inductive LogLevel where
  /-- Of interest only to those who ask for more. -/
  | debug
  | info
  | warning
  deriving DecidableEq, Repr

structure LogEntry where
  level : LogLevel
  message : String
  deriving DecidableEq, Repr

namespace LogEntry

def debug (message : String) : LogEntry := ⟨.debug, message⟩

def info (message : String) : LogEntry := ⟨.info, message⟩

def warning (message : String) : LogEntry := ⟨.warning, message⟩

/-- Whether a log shows the entry. -/
def isShown (verbose : Bool) (e : LogEntry) : Bool :=
  verbose || e.level ≠ .debug

/-- The level, as wide as the widest one, and the number of the colour it is shown in. -/
def levelText : LogLevel → String × Nat
  | .debug => ("DEBUG", 34)
  | .info => (" INFO", 32)
  | .warning => (" WARN", 33)

/-- The controls below U+0080 that may move a cursor or sound a bell: bell, backspace, form feed,
escape and delete. Tabs and line ends are none of them. -/
def steering : List Char := ['\x07', '\x08', '\x0c', '\x1b', '\x7f']

/-- A character as the log shows it: one that may steer a terminal is spelt out. -/
def shownChar (c : Char) : List Char :=
  let n := c.toNat
  if steering.contains c then ['\\', 'x', Text.hexDigit (n / 16), Text.hexDigit (n % 16)]
  else if 0x80 ≤ n && n ≤ 0x9f then '\\' :: 'u' :: '\x7b' :: Nat.toDigits 16 n ++ ['\x7d']
  else [c]

def shownMessage (s : String) : String :=
  String.ofList (s.toList.flatMap shownChar)

/-- The entry as lines of text. A message may have several. -/
def render (colour : Bool) (e : LogEntry) : String :=
  let (word, number) := levelText e.level
  let shown :=
    if colour then
      Diagnostic.escapeCode ++ s!"[{number}m" ++ word ++ Diagnostic.escapeCode ++ "[0m"
    else word
  shown ++ " " ++ shownMessage e.message ++ "\n"

end LogEntry

end Bindery
