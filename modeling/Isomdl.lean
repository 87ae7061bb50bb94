import Isomdl.Prelude
import Isomdl.SerdeCbor.Value
import Isomdl.SerdeCbor.Decode
import Isomdl.SerdeCbor.Encode
import Isomdl.SerdeCbor.Grammar
import Isomdl.Der.Length
import Isomdl.Definitions.X509.Backend
import Isomdl.Definitions.X509.Validate
import Isomdl.Definitions.X509.Unique
import Isomdl.Definitions.X509.Wire
import Isomdl.Definitions.X509.Builder
