import EntityModel.Main
import EntityModel.Proofs.Command
import EntityModel.Proofs.Conversion.Date
import EntityModel.Proofs.Conversion.Decimal
import EntityModel.Proofs.Conversion.Exactness
import EntityModel.Proofs.Conversion.Registration
import EntityModel.Proofs.Delivery
import EntityModel.Proofs.Entity.Alike
import EntityModel.Proofs.Entity.Confinement
import EntityModel.Proofs.Entity.Failure
import EntityModel.Proofs.Entity.PathText
import EntityModel.Proofs.Expression.Concatenation
import EntityModel.Proofs.Framing
import EntityModel.Proofs.Mapping.Computed
import EntityModel.Proofs.Registry.History
import EntityModel.Proofs.Registry.References
import EntityModel.Proofs.Schema.Definition
import EntityModel.Proofs.Expression.Coverage
import EntityModel.Proofs.Expression.FaultPlace
import EntityModel.Proofs.Calendar.Timestamp
import EntityModel.Proofs.Schema.Codec
import EntityModel.Proofs.Json.Text
