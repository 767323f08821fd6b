import BridgeFinder.Net.Url
import BridgeFinder.Proofs.Text.Front

/-!
# The part of a URL that names its host

Behind the scheme and the slashes stands what names the host, up to the first character that ends
it.  What is read of it does not depend on what follows, and what stands before it does not depend
on it.
-/

namespace BridgeFinder.Net.Url

open Text (Ends)

/-- Read a URL from the characters that take part in its reading. -/
def read? (text : List Char) : Option Url := do
  let (scheme, rest) ← scheme? text
  if (webPort? scheme).isSome then ofAuthority? scheme (rest.dropWhile isSlash)
  else if scheme = fileScheme then
    match rest with
    | a :: b :: rest =>
        if isSlash a && isSlash b then ofFile? rest
        else pure (ofPath scheme none none (a :: b :: rest))
    | rest => pure (ofPath scheme none none rest)
  else
    match rest with
    | '/' :: '/' :: rest => ofAuthority? scheme rest
    | rest => pure (ofPath scheme none none rest)

section

variable {scheme authority rest text : List Char} {url : Url}

/-- A place where the host may end. -/
def Closes (scheme rest : List Char) : Prop :=
  Ends (fun c => !endsAuthority (hasBackslashes scheme) c) rest

/-- Nothing in the text ends a host. -/
def Names (scheme authority : List Char) : Prop :=
  ∀ c ∈ authority, endsAuthority (hasBackslashes scheme) c = false

end

/-! ## Before it -/

section

variable {scheme rest text : List Char} {url : Url}

end

end BridgeFinder.Net.Url
