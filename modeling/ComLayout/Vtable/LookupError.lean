/-!
# Why a lookup fails

A lookup ends without a vtable for one of five reasons. Each has one message.
-/

namespace ComLayout

/-- The reasons for which an interface has no vtable. -/
inductive LookupError where
  | nameRequired
  | noMatchingFiles (pattern : String)
  | interfaceNotFound (interface pattern : String) (filesSearched : Nat)
  | baseUnresolved (interface base path : String)
  | inheritanceCycle (chain : List String)
deriving DecidableEq, Repr

/-- The message for a reason. -/
def LookupError.message : LookupError → String
  | .nameRequired => "interface_name is required"
  | .noMatchingFiles pattern => "Pattern matched no files: " ++ pattern
  | .interfaceNotFound interface pattern filesSearched =>
    "Interface " ++ interface ++ " not declared in any of " ++ toString filesSearched ++
      " file(s) matching " ++ pattern
  | .baseUnresolved interface base path =>
    "Base interface " ++ base ++ " of " ++ interface ++ " not declared in " ++ path
  | .inheritanceCycle chain =>
    "Base interface chain does not terminate: " ++ String.intercalate " -> " chain

end ComLayout
