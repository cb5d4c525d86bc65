import SpecVerdict.Report.Status

namespace SpecVerdict

structure StatusTally where
  passed : Nat := 0
  failed : Nat := 0
  skipped : Nat := 0
  pending : Nat := 0
  undefined : Nat := 0
  notExecuted : Nat := 0
  deriving DecidableEq, Repr

namespace StatusTally

def get (c : StatusTally) : Status → Nat
  | .passed => c.passed
  | .failed => c.failed
  | .skipped => c.skipped
  | .pending => c.pending
  | .undefined => c.undefined
  | .notExecuted => c.notExecuted

def add (c : StatusTally) : Status → StatusTally
  | .passed => { c with passed := c.passed + 1 }
  | .failed => { c with failed := c.failed + 1 }
  | .skipped => { c with skipped := c.skipped + 1 }
  | .pending => { c with pending := c.pending + 1 }
  | .undefined => { c with undefined := c.undefined + 1 }
  | .notExecuted => { c with notExecuted := c.notExecuted + 1 }

def plus (a b : StatusTally) : StatusTally where
  passed := a.passed + b.passed
  failed := a.failed + b.failed
  skipped := a.skipped + b.skipped
  pending := a.pending + b.pending
  undefined := a.undefined + b.undefined
  notExecuted := a.notExecuted + b.notExecuted

def ofList (statuses : List Status) : StatusTally := statuses.foldl add {}

def total (c : StatusTally) : Nat := (Status.all.map c.get).foldr (· + ·) 0

def executed (c : StatusTally) : Nat := c.passed + c.failed + c.skipped

def status (c : StatusTally) : Status :=
  if c.failed != 0 then .failed
  else if c.passed != 0 then .passed
  else if c.skipped != 0 then .skipped
  else .notExecuted

end StatusTally

end SpecVerdict
