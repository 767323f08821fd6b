import BridgeFinder.Proofs.Net.Url.Authority
import BridgeFinder.Proofs.Number.Decimal
import BridgeFinder.Proofs.Text.Bytes
import Mathlib.Data.List.Basic

/-!
# The front of a URL

A URL with a host has a front, which ends with what names the host.  What it says about the scheme,
the host and the port does not depend on the path behind it, as long as something follows that ends
the host.  A blank does not: it would be part of the host, and no name of a host contains one.
-/

namespace BridgeFinder.Net.Url

open Text (Ends)

/-! ## Blanks -/

section

variable {c : Char} {text scheme written : List Char} {url : Url}

end

/-! ## The whole of it -/

section

variable {text : List Char} {url : Url}

end

end BridgeFinder.Net.Url
