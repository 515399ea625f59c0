/-! Failures of code that the library calls: they are passed on and logged, never understood. -/

namespace PushDispatch

structure Failure where
  kind : String
  text : String
  deriving DecidableEq, Repr

def Failure.report (f : Failure) : String :=
  if f.text = "" then f.kind else f.kind ++ ": " ++ f.text

end PushDispatch
