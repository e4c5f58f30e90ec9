import Sbctl.Lib.Assoc
import Sbctl.Lib.Machine
import Sbctl.Lib.Meter
import Sbctl.Lib.Calendar
import Sbctl.Lib.Tiling
import Sbctl.Lib.Zone
import Sbctl.Lib.NamedLock
import Sbctl.Lib.Stepwise
import Sbctl.Lib.TokenBucket
import Sbctl.Lib.Tally
import Sbctl.Lib.Text
import Sbctl.Config
import Sbctl.Validate
import Sbctl.Ports
import Sbctl.Options
import Sbctl.Allocation
import Sbctl.Period
import Sbctl.Traffic
import Sbctl.Sampling
import Sbctl.Correction
import Sbctl.Boundary
import Sbctl.Credential
import Sbctl.Lib.Spelling
import Sbctl.Lib.Lines
import Sbctl.Lib.Percent
import Sbctl.Lib.Base64
import Sbctl.Lib.IpText
import Sbctl.Lib.Uri
import Sbctl.Serve
import Sbctl.Routes
import Sbctl.Canonical
import Sbctl.ShareLinks
import Sbctl.ShareReading
import Sbctl.Outbounds
import Sbctl.Firewall
import Sbctl.Lib.Dialog
import Sbctl.Wizard
import Sbctl.WizardEnter
import Sbctl.WizardKeeps
import Sbctl.RuleList
import Sbctl.Rules
import Sbctl.Budget
import Sbctl.Connections
import Sbctl.Ledger
import Sbctl.Lifecycle
import Sbctl.Lib.Traverse
import Sbctl.Lib.KeyOrder
import Sbctl.Lib.Json
import Sbctl.Lib.JsonText
import Sbctl.Lib.CanonicalJson
import Sbctl.Merge
import Sbctl.Lib.Yaml
import Sbctl.YamlMerge
import Sbctl.Override
import Sbctl.Spare
import Sbctl.Protected
import Sbctl.Lib.Snapshot
import Sbctl.Store
import Sbctl.Transaction
import Sbctl.ManagedDirectory
import Sbctl.Generations
import Sbctl.Publication
import Sbctl.Acknowledgement
import Sbctl.Deployment
import Sbctl.ModeSwitch
import Sbctl.Recovery
import Sbctl.Reload
import Sbctl.Update
import Sbctl.Install
import Sbctl.Installs
import Sbctl.Exclusion
import Sbctl.Release
import Sbctl.Email
import Sbctl.Delivery
import Sbctl.Signing
import Sbctl.Routing
import Sbctl.References
import Sbctl.ClashReferences
