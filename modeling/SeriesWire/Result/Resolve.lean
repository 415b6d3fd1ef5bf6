import SeriesWire.Delivery.Error
import SeriesWire.Identity.Lookup
import SeriesWire.Series.Result

/-! Resolving the identities of a result before it is rendered. -/

namespace SeriesWire

/-- The readable form of one identity. -/
def SeriesId.resolve (resolver : Option Resolver) : SeriesId → Except ResolutionError SeriesName
  | .named name => .ok name
  | .encoded id =>
    match resolver with
    | none => .error (.noResolver id)
    | some table =>
      match table.get? id with
      | some name => .ok name
      | none => .error (.unknown id)

/-- The readable identities of all series in order, or the failure of the first series that has one.
A result that is said to carry encoded identities is refused without a resolver. -/
def QueryResult.resolve (result : QueryResult) (form : IdForm) (resolver : Option Resolver)
    : Except DeliveryError (List SeriesName) :=
  if form = .byte ∧ resolver.isNone then .error (.invalid (.missingResolver result.source))
  else (result.series.mapM fun (series : Series) => series.id.resolve resolver).mapError .resolution

end SeriesWire
