import ConnectWeb.Foundation.Transition
import ConnectWeb.Sab.Unblocked
import ConnectWeb.Sab.Windows
import ConnectWeb.Sab.Release
import ConnectWeb.Sab.Failures
import ConnectWeb.Sab.Rows
import ConnectWeb.Sab.Unheard
import ConnectWeb.Sab.Settling
import ConnectWeb.Transport.Trailers
import ConnectWeb.Arrow.Edits
import ConnectWeb.Arrow.Localize
import ConnectWeb.Patch.Lifecycle
import ConnectWeb.Patch.Routing
import ConnectWeb.Patch.WebUrl
import ConnectWeb.Harness.Capture
import ConnectWeb.Harness.Kernel
