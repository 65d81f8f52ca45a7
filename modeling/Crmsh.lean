import Crmsh.Python
import Crmsh.Dom
import Crmsh.ConfParser
import Crmsh.ConfParserSet
import Crmsh.LinkManager.Link
import Crmsh.LinkManager.Links
import Crmsh.LinkManager.Ops
import Crmsh.LinkManager.Shape
import Crmsh.LinkManager.Calls
import Crmsh.LinkManager.Options
import Crmsh.LinkManager.WellFormed
import Crmsh.LinkManager.UpdateLink
import Crmsh.LinkManager.Uniqueness
import Crmsh.LinkManager.Check
import Crmsh.LinkManager.Slots
import Crmsh.LinkManager.Contracts
import Crmsh.LinkManager.Table
import Crmsh.LinkManager.Frame
import Crmsh.Corosync
import Crmsh.NodeConfig
import Crmsh.NodeLinks
import Crmsh.Migration.Steps
import Crmsh.Migration.Idempotent
import Crmsh.Migration.Multicast
import Crmsh.Migration.Legacy
import Crmsh.Migration.Cib
import Crmsh.Migration.Check
