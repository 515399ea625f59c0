import PushDispatch.Log.Level

/-! Records for the log, as the parts of the library leave them. -/

namespace PushDispatch

structure LogRecord where
  level : Level
  logger : String
  message : String
  deriving DecidableEq, Repr

end PushDispatch
