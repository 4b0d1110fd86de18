import LayeredConfig.FileSystem.Disk
import LayeredConfig.Load.Shape
import LayeredConfig.Proofs.Formula.Derivation
import LayeredConfig.Proofs.Formula.Exactness
import LayeredConfig.Proofs.Formula.Relations
import LayeredConfig.Proofs.Formula.Writing
import LayeredConfig.Proofs.Import.Judgement
import LayeredConfig.Proofs.Import.Order
import LayeredConfig.Proofs.Import.Outlined
import LayeredConfig.Proofs.Import.Precedence
import LayeredConfig.Proofs.Import.Skipping
import LayeredConfig.Proofs.Load.Checked
import LayeredConfig.Proofs.Load.Inert
import LayeredConfig.Proofs.Node.Json
import LayeredConfig.Proofs.Numerals
import LayeredConfig.Proofs.Outline.Guarded
import LayeredConfig.Proofs.Outline.Integers
import LayeredConfig.Proofs.Outline.TagText
import LayeredConfig.Proofs.Outline.Unindented
import LayeredConfig.Proofs.Resolution.Finished
import LayeredConfig.Proofs.Resolution.Items
import LayeredConfig.Proofs.Resolution.Once
import LayeredConfig.Proofs.Resolution.Rekeying
import LayeredConfig.Proofs.Schema.Verdict
import LayeredConfig.Proofs.Tag.LeadingInt
