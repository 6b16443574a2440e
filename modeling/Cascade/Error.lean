import Cascade.Conditions
import Cascade.ParseError
import Cascade.Registry

/-!
# Errors

Everything that can go wrong, with the words for it.
-/

namespace Cascade

/-- Why a file gives no text. -/
inductive FileFault where
  | notFound
  | invalidData
deriving DecidableEq

/-- What went wrong. -/
inductive Error where
  | parse (error : ParseError)
  | condition (error : ConditionError)
  | registry (error : RegistryError)
  | resolve (error : ResolveError)
  | json
  | file (fault : FileFault)
  | noRegistry
  | noTable

/-- What went wrong, in words. -/
def Error.message : Error → String
  | parse error => error.message
  | condition error => error.message
  | registry error => error.message
  | resolve error => error.message
  | json => "the text is not valid JSON"
  | file .notFound => "the file does not exist"
  | file .invalidData => "the file is not text in UTF-8"
  | noRegistry => "no registry has been built"
  | noTable => "no table of conditions has been built"

end Cascade
