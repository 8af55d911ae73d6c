namespace WebResource

/-!
# Log records
-/

inductive LogLevel where
  | error
  | warn
  | info
  | debug
  deriving DecidableEq, Repr

structure LogRecord where
  level : LogLevel
  text : String
  deriving DecidableEq, Repr

namespace LogRecord

def error (text : String) : LogRecord := ⟨.error, text⟩
def warn (text : String) : LogRecord := ⟨.warn, text⟩
def info (text : String) : LogRecord := ⟨.info, text⟩
def debug (text : String) : LogRecord := ⟨.debug, text⟩

end LogRecord

end WebResource
