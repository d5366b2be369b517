import Dfci.Permission.Migration
import Dfci.Permission.UnsignedClosed
import Dfci.System.Tokens
import Dfci.Settings.AntiRollback
import Dfci.System.ZtdSlot
import Dfci.System.ZtdRelease
import Dfci.Identity.CertBoot
import Dfci.Identity.PasswordView
import Dfci.System.RecoveryOutcome
import Dfci.System.IdentityRollback
import Dfci.Permission.Idempotent
import Dfci.Permission.WellFormed
import Dfci.System.Callbacks
import Dfci.System.Reboots
import Dfci.Settings.SetGet
import Dfci.Settings.WriteAccess
import Dfci.Identity.CertNames
import Dfci.System.RecoveryChallenge
import Dfci.Manager.PacketTool
import Dfci.Settings.Published
import Dfci.System.PublishedPermissions
import Dfci.Menu.Request
