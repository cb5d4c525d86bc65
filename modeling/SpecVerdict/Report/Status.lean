namespace SpecVerdict

inductive Status where
  | passed
  | failed
  | skipped
  | pending
  | undefined
  | notExecuted
  deriving DecidableEq, Repr, Inhabited

namespace Status

def all : List Status := [.passed, .failed, .skipped, .pending, .undefined, .notExecuted]

def word : Status → String
  | .passed => "passed"
  | .failed => "failed"
  | .skipped => "skipped"
  | .pending => "pending"
  | .undefined => "undefined"
  | .notExecuted => "not_executed"

def ofWord? (word : String) : Option Status := all.find? (·.word == word)

theorem ofWord?_word (s : Status) : ofWord? s.word = some s := by cases s <;> decide

end Status

end SpecVerdict
