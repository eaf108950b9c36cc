import Ipsc2Hbrp.Go.Basic
import Ipsc2Hbrp.Go.Utf8
import Ipsc2Hbrp.Go.Fmt
import Ipsc2Hbrp.Go.Float
import Ipsc2Hbrp.Proto.Packet
import Ipsc2Hbrp.Proto.Codec
import Ipsc2Hbrp.Config.Common
import Ipsc2Hbrp.Config.Single
import Ipsc2Hbrp.Config.Multi
import Ipsc2Hbrp.Config.Versions
import Ipsc2Hbrp.HBRP.Packets
import Ipsc2Hbrp.HBRP.Layout
import Ipsc2Hbrp.HBRP.Position
