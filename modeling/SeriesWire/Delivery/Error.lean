import SeriesWire.Identity.Name
import SeriesWire.Json.Writer
import SeriesWire.Series.Packed

/-! Why a query's results could not be delivered. -/

namespace SeriesWire

/-- A call that the state of the query or its arguments forbid. -/
inductive InvalidArgument where
  | reversedWindow (start stop : Int)
  | missingResolver (source : String)
  | idCount (ids series : Nat) (source : String)
  | wholeAfterShards
  | shardAfterWhole
  deriving DecidableEq, Repr

def InvalidArgument.message : InvalidArgument → String
  | .reversedWindow start stop => s!"query start {start} is after its end {stop}"
  | .missingResolver source =>
    s!"result {source} carries byte ids but the query has no id resolver"
  | .idCount ids series source => s!"{ids} ids for {series} series of {source}"
  | .wholeAfterShards => "whole results can not be mixed with partial series"
  | .shardAfterWhole => "partial series can not be mixed with whole results"

/-- Why an encoded identity could not be resolved. -/
inductive ResolutionError where
  | unknown (id : EncodedId)
  | noResolver (id : EncodedId)
  deriving DecidableEq, Repr

def ResolutionError.message : ResolutionError → String
  | .unknown id => "no identity for " ++ id.text
  | .noResolver id => "no resolver for " ++ id.text

inductive DeliveryError where
  | invalid (cause : InvalidArgument)
  /-- Writing failed on behalf of a source, the shards or the document. -/
  | serialization (place : String) (cause : Json.Fault)
  | decoding (source : String) (cause : Packed.PackedError)
  | resolution (cause : ResolutionError)
  | unresolved (count : Nat)
  | closed
  | unsupported (feature : String)
  deriving DecidableEq, Repr

namespace DeliveryError

def message : DeliveryError → String
  | .invalid cause => "invalid argument: " ++ cause.message
  | .serialization place cause => s!"serialization failed for {place}: " ++ cause.message
  | .decoding source cause => s!"failed to decode shard of {source}: " ++ cause.message
  | .resolution cause => "failed to resolve series ids: " ++ cause.message
  | .unresolved count => s!"{count} partial series could not be resolved to an identity"
  | .closed => "the document has already been closed"
  | .unsupported feature => "not supported: " ++ feature

/-- The failure underneath, if there is one. -/
def cause? : DeliveryError → Option String
  | .serialization _ cause => some cause.message
  | .decoding _ cause => some cause.message
  | .resolution cause => some cause.message
  | _ => none

end DeliveryError

end SeriesWire
