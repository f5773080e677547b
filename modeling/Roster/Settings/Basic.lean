import Roster.Artifact.Format
import Roster.Host.Detection

/-! Settings of a discovery: where the project lies, which interfaces are looked for, and what may override the
sizing by resources. -/

namespace Roster

structure Settings where
  base : Path
  app : Option Path := none
  cache : Option Path := none
  moduleDirectories : List String := ["app_modules", "app-modules"]
  vendors : List String := []
  interfaces : List String := []
  memoryLimit : Option String := none
  batchSize : Option Int := none
  progressive : Option Bool := none
  format : Artifact.Format := .php
  searchVendors : Bool := false
  searchAllVendors : Bool := false
  /-- the host's profile, once it is known -/
  profile : Option Profile := none

namespace Settings

/-- Where the application's own sources lie. -/
def sourcePath (settings : Settings) : Path :=
  settings.app.getD (settings.base / "app")

/-- Where artifacts lie. -/
def cachePath (settings : Settings) : Path :=
  settings.cache.getD (settings.base / "bootstrap/cache/discovery")

/-- Adds a vendor package and turns the search of vendors on. -/
def addVendor (settings : Settings) (vendor : String) : Settings :=
  { settings with searchVendors := true, vendors := settings.vendors ++ [vendor] }

/-- Adds an interface by its short name, unless it is there already. -/
def addInterface (settings : Settings) (name : String) : Settings :=
  let short := Name.short (Text.trim name)
  if settings.interfaces.contains short then settings
  else { settings with interfaces := settings.interfaces ++ [short] }

/-- The host's profile, detected on first use and kept. -/
def resourceProfile (settings : Settings) (host : Host) : Except Host.Fault (Profile × Settings) :=
  match settings.profile with
  | some profile => .ok (profile, settings)
  | none => do
      let profile ← host.detect settings.memoryLimit
      return (profile, { settings with profile := some profile })

end Settings

end Roster
