import Veil.Lib.Address
import Veil.Proxy.Controller
import Mathlib.Data.Fintype.Basic

/-!
# The desktops

GNOME keeps its proxy settings in a tree of keys, Windows in four values of
one option list.  Credentials, bypass lists and whatever else a backend does
not list are never read or written.
-/

namespace Veil.Proxy

open Lib

inductive GnomeKey where
  | httpHost
  | httpPort
  | httpUseAuthentication
  | httpsHost
  | httpsPort
  | mode
  | socksHost
  | socksPort
  deriving DecidableEq

namespace GnomeKey

def path : GnomeKey → Text
  | httpHost => "http/host".toList
  | httpPort => "http/port".toList
  | httpUseAuthentication => "http/use-authentication".toList
  | httpsHost => "https/host".toList
  | httpsPort => "https/port".toList
  | mode => "mode".toList
  | socksHost => "socks/host".toList
  | socksPort => "socks/port".toList

instance : Keys GnomeKey where
  keys := [httpHost, httpPort, httpUseAuthentication, httpsHost, httpsPort,
    mode, socksHost, socksPort]
  label := path
  listed key := by cases key <;> simp
  distinct := by
    intro left right same
    cases left <;> cases right <;> first | rfl | exact absurd same (by decide +kernel)

instance : Fintype GnomeKey :=
  Fintype.ofList Keys.keys Keys.listed

end GnomeKey

/-- A text in the quotes of a printed variant. -/
def quoted (text : Text) : Text :=
  '\'' :: (text ++ ['\''])

/-- The desktop's own variants: texts are quoted, numbers are not. -/
def gnome : Backend GnomeKey where
  name := "gnome".toList
  manual _ endpoint :=
    let (host, port) := (splitHostPort endpoint).getD ([], [])
    fun
    | .mode => quoted "manual".toList
    | .httpHost | .httpsHost => quoted host
    | .httpPort | .httpsPort => port
    | .httpUseAuthentication => "false".toList
    | .socksHost => quoted []
    | .socksPort => "0".toList
  direct settings := fun key =>
    if key = .mode then quoted "none".toList else settings key

inductive WindowsKey where
  | bypass
  | flags
  | pac
  | server
  deriving DecidableEq

namespace WindowsKey

def name : WindowsKey → Text
  | bypass => "bypass".toList
  | flags => "flags".toList
  | pac => "pac".toList
  | server => "server".toList

instance : Keys WindowsKey where
  keys := [bypass, flags, pac, server]
  label := name
  listed key := by cases key <;> simp
  distinct := by
    intro left right same
    cases left <;> cases right <;> first | rfl | exact absurd same (by decide +kernel)

instance : Fintype WindowsKey :=
  Fintype.ofList Keys.keys Keys.listed

end WindowsKey

/-- Direct and proxied connections are flags; a proxy turns the script off. -/
def wininet : Backend WindowsKey where
  name := "wininet".toList
  manual settings endpoint
    | .bypass => settings .bypass
    | .flags => "3".toList
    | .pac => []
    | .server => "http=".toList ++ endpoint ++ ";https=".toList ++ endpoint
  direct settings
    | .bypass => settings .bypass
    | .flags => "1".toList
    | .pac => []
    | .server => []

/-- A second endpoint replaces the first one completely. -/
theorem gnome_manual_manual (settings : Snapshot GnomeKey)
    (first second : Text) :
    gnome.manual (gnome.manual settings first) second =
      gnome.manual settings second := by
  funext key
  cases key <;> rfl

theorem wininet_manual_manual (settings : Snapshot WindowsKey)
    (first second : Text) :
    wininet.manual (wininet.manual settings first) second =
      wininet.manual settings second := by
  funext key
  cases key <;> rfl

end Veil.Proxy
