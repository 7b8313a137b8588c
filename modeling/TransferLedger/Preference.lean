import TransferLedger.Coded

/-! How a job part wants to be run: its priority and the least severity that it
logs. -/

namespace TransferLedger

inductive Priority where
  | normal
  | low
  deriving DecidableEq, Repr, Inhabited

namespace Priority

def code : Priority → Int
  | .normal => 0
  | .low => 1

def label : Priority → String
  | .normal => "normal"
  | .low => "low"

instance : Coded Priority where
  kind := "priority"
  values := [.normal, .low]
  code := code
  label := label
  mem_values value := by cases value <;> decide
  code_injective left right := by cases left <;> cases right <;> decide
  label_injective left right := by cases left <;> cases right <;> decide

end Priority

inductive LogLevel where
  | none
  | fatal
  | panic
  | error
  | warning
  | info
  | debug
  deriving DecidableEq, Repr

instance : Inhabited LogLevel := ⟨.info⟩

namespace LogLevel

def code : LogLevel → Int
  | .none => 0
  | .fatal => 1
  | .panic => 2
  | .error => 3
  | .warning => 4
  | .info => 5
  | .debug => 6

def label : LogLevel → String
  | .none => "none"
  | .fatal => "fatal"
  | .panic => "panic"
  | .error => "error"
  | .warning => "warning"
  | .info => "info"
  | .debug => "debug"

instance : Coded LogLevel where
  kind := "log level"
  values := [.none, .fatal, .panic, .error, .warning, .info, .debug]
  code := code
  label := label
  mem_values value := by cases value <;> decide
  code_injective left right := by cases left <;> cases right <;> decide
  label_injective left right := by cases left <;> cases right <;> decide

/-- Levels are ordered from the most to the least severe. -/
instance : Ord LogLevel where
  compare left right := compare left.code right.code

end LogLevel

end TransferLedger
