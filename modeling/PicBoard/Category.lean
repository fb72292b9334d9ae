/-!
# Classes of failure

Every failure falls into one coarse class, by which a caller decides what to do about it.
-/

namespace PicBoard

/-- The coarse class of a failure. -/
inductive Category where
  | malformedInput
  | unsupported
  | integrityFailure
  | expired
  | resourceFailure
  | producerRejected
deriving DecidableEq, Repr

/-- The name of a class. -/
def Category.name : Category → String
  | .malformedInput => "MalformedInput"
  | .unsupported => "Unsupported"
  | .integrityFailure => "IntegrityFailure"
  | .expired => "Expired"
  | .resourceFailure => "ResourceFailure"
  | .producerRejected => "ProducerRejected"

end PicBoard
