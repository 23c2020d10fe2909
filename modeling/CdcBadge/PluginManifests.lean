import CdcBadge.Bytes
import CdcBadge.Cbor

/-!
# Installed plugins and what their manifests claim

The files of the plugins on the FAT partition, the manifest as `PluginManifest::parse` leaves
it, the checks of `CapabilityChecker`, and the search for a claim that another installed
plugin makes too.
-/

namespace CdcBadge.Plugin

open Cbor (ascii)

abbrev Id:=Bytes
abbrev Name:=Bytes

/-- The parts of a manifest that loading and the host calls read. -/
structure Manifest where
  rmem : List Name:=[]
  ecc : List Name:=[]
  nvsNamespace : Name:=[]
  background : Bool:=false
  autoload : Bool:=false
  /-- The checks of `CapabilityChecker::validate` on the other fields pass. -/
  capable : Bool:=true
  deriving DecidableEq

/-- `HOST_RMEM_NAME_MAX` and `HOST_ECC_NAME_MAX`. -/
def nameMax : ℕ:=15

def nvsNamespaceMaxLen : ℕ:=15

def nameValid (name : Name) : Bool:=!name.isEmpty && name.length ≤ nameMax

/-- A byte of `[a-z0-9_]`. -/
def namespaceByte (c : UInt8) : Bool:=(97 ≤ c && c ≤ 122) || (48 ≤ c && c ≤ 57) || c == 95

def namespaceValid (m : Manifest) : Bool:=
  if m.nvsNamespace.isEmpty then m.rmem.isEmpty
  else m.nvsNamespace.length ≤ nvsNamespaceMaxLen && m.nvsNamespace≠ascii "plg_ecc_map" &&
    ((ascii "plg_").isPrefixOf m.nvsNamespace || (ascii "plugin_").isPrefixOf m.nvsNamespace) &&
    m.nvsNamespace.all namespaceByte

def validate (m : Manifest) : Bool:=
  m.capable && m.rmem.all nameValid && m.ecc.all nameValid && namespaceValid m

/-- The system folder: the ids that have a binary, and what each `.meta` file parses to. -/
structure Disk where
  binaries : List Id
  metas : Id→Option (Option Manifest)
  disabled : Id→Bool

/-- Which `.meta` files open and read without an error. -/
abbrev Reads:=Id→Bool

/-- A binary counts as a plugin where a `.meta` file lies beside it. -/
def listInstalledIds (d : Disk) : List Id:=(d.binaries.filter fun id=>(d.metas id).isSome).eraseDups

def getManifest (reads : Reads) (d : Disk) (id : Id) : Option Manifest:=
  if reads id then (d.metas id).join else none

/-- `any_installed_declares_rmem` and `any_installed_declares_ecc`: a manifest that cannot be had declares nothing. -/
def anyInstalledDeclares (names : Manifest → List Name) (reads : Reads) (d : Disk) (name : Name) : Bool:=
  (listInstalledIds d).any fun id=>
    match getManifest reads d id with
    | none=>false
    | some m=>(names m).contains name

def effectiveNs (id : Id) (m : Manifest) : Name:=
  if m.nvsNamespace.isEmpty then ascii "plugin_"++id else m.nvsNamespace

def claimed (id : Id) (mf : Manifest) (otherId : Id) (other : Manifest) : Bool:=
  effectiveNs id mf == effectiveNs otherId other || mf.rmem.any other.rmem.contains || mf.ecc.any other.ecc.contains

def claimsCollide (reads : Reads) (d : Disk) (id : Id) (mf : Manifest) : Bool:=
  (listInstalledIds d).any fun otherId=>
    otherId != id && match getManifest reads d otherId with
      | none=>false
      | some other=>claimed id mf otherId other

end CdcBadge.Plugin
