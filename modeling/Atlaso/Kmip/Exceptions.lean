import Mathlib.Data.List.Basic

/-!
The Python exceptions that cross function boundaries in the KMIP service, one
constructor for each class, with the text the source gives them.

`ConfigurationError` and the socket errors stay in the server's own start-up code
and are not part of this model.
-/

namespace Atlaso.Kmip.Exceptions

inductive ResultReason where
  | itemNotFound | invalidMessage | operationNotSupported | missingData | invalidField
  | keyFormatTypeNotSupported | generalFailure
  deriving DecidableEq, Repr

/-- An exception in flight. `ttlvError` is a `ValueError` and `keyNotFoundError`,
`keyStateError` are `KeyStoreError`s in the source; every handler of the model
names the classes it catches one by one. -/
inductive Raised where
  | ttlvError (message : String)
  | structError (message : String)
  | valueError (message : String)
  | typeError (message : String)
  | assertionError (message : String)
  | protocolFailure (reason : ResultReason) (message : String)
  | keyStoreError (message : String)
  | keyNotFoundError (message : String)
  | keyStateError (message : String)
  | integrityError (message : String)
  | osError (message : String)
  deriving DecidableEq, Repr

end Atlaso.Kmip.Exceptions
