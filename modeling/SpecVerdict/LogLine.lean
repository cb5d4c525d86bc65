namespace SpecVerdict

def levelNames : List (Int × String) :=
  [(0, "NOTSET"), (10, "DEBUG"), (20, "INFO"), (30, "WARNING"), (40, "ERROR"), (50, "CRITICAL")]

def levelName (level : Int) : String :=
  ((levelNames.find? (·.1 == level)).map (·.2)).getD s!"Level {level}"

def terminalCode (n : Nat) : String := s!"\x1b[{n}m"

def levelColour (level : Int) : String :=
  if level == 10 then terminalCode 36
  else if level == 20 then terminalCode 32
  else if level == 30 then terminalCode 33
  else if level == 40 then terminalCode 31
  else if level == 50 then terminalCode 31 ++ terminalCode 1
  else ""

def logLine (level : Int) (logger message : String) (coloured : Bool) : String :=
  let line := s!"[{levelName level}] {logger}: {message}"
  if coloured then levelColour level ++ line ++ terminalCode 0 else line

def configurableLevels : List String :=
  ["CRITICAL", "FATAL", "ERROR", "WARN", "WARNING", "INFO", "DEBUG", "NOTSET"]

def levelCapital (c : Char) : Char :=
  if c == '\u0131' then 'I' else if c == '\u017F' then 'S' else c.toUpper

def isLevel (name : String) : Bool :=
  configurableLevels.contains (String.ofList (name.toList.map levelCapital))

end SpecVerdict
