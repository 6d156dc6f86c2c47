import GoproNative.Http.Definitions
import GoproNative.Support.Json
import GoproNative.Support.Keyed

/-!
# Where credentials are kept

This module embeds `CohnCredentials` and `FileCredentialStore` of `credentials.dart`.  The
steps on the file system succeed, and nothing but the store touches its directory: a file
is there with its permission bits and its bytes.
-/

namespace GoproNative

/-- `password` is a `Secret`. -/
structure CohnCredentials where
  username : Text
  password : Text
  certificate : Text
  ipAddress : Option Text := none
  ssid : Option Text := none
  macAddress : Option Text := none
  deriving DecidableEq

namespace CohnCredentials

/-- A member that is left out where the value is null. -/
def ifPresent (name : String) (value : Option Text) : List Json.Member :=
  match value with
  | some v => [(utf16 name, some v)]
  | none => []

def toJson (c : CohnCredentials) : List Json.Member :=
  [(utf16 "username", some c.username), (utf16 "password", some c.password),
    (utf16 "certificate", some c.certificate)] ++
  ifPresent "ipAddress" c.ipAddress ++ ifPresent "ssid" c.ssid ++
  ifPresent "macAddress" c.macAddress

/-- `json[name]`: the last member of the name counts. -/
def field (json : List Json.Member) (name : String) : Option Text :=
  (json.reverse.lookup (utf16 name)).join

/-- `none` where `!` throws. -/
def fromJson (json : List Json.Member) : Option CohnCredentials := do
  let username ← field json "username"
  let password ← field json "password"
  let certificate ← field json "certificate"
  return {
    username := username
    password := password
    certificate := certificate
    ipAddress := field json "ipAddress"
    ssid := field json "ssid"
    macAddress := field json "macAddress" }

end CohnCredentials

inductive StoreError
  | argumentError (message : Text)
  | stateError (message : Text)
  /-- Of `readAsString`, `jsonDecode` or `fromJson`. -/
  | malformed
  deriving DecidableEq

structure StoredFile where
  /-- The permission bits. -/
  mode : Nat
  bytes : Bytes
  deriving DecidableEq

/-- `writeAsString` encodes to UTF-8, with U+FFFD for a lone surrogate. -/
def writeAsString (text : Text) : Bytes := Utf8.encode (Utf16.decode text)

def readAsString (bytes : Bytes) : Option Text := (Utf8.decode bytes).map Utf16.encode

/-- The store and its directory. -/
structure FileCredentialStore where
  dir : Text
  /-- The mode of a file that is created, as the umask has it. -/
  created : Nat
  /-- The mode of the directory, if it is there. -/
  dirMode : Option Nat := none
  files : Text → Option StoredFile := fun _ => none

/-- What `[^A-Za-z0-9_-]` does not match. -/
def usable (u : UInt16) : Bool :=
  (0x41 ≤ u && u ≤ 0x5A) || (0x61 ≤ u && u ≤ 0x7A) || (0x30 ≤ u && u ≤ 0x39) ||
    u = 0x5F || u = 0x2D

/-- The serial with `_` for what is not safe in the name of a file. -/
def safeName (serial : Text) : Text := serial.map fun u => if usable u then u else 0x5F

namespace FileCredentialStore

/-- The path of the file. -/
def path (s : FileCredentialStore) (safe : Text) : Text :=
  s.dir ++ utf16 "/" ++ safe ++ utf16 ".json"

/-- `_fileFor`. -/
def fileFor (s : FileCredentialStore) (serial : Text) : Except StoreError Text :=
  let safe := safeName serial
  if safe = [] ∨ safe.filter (· ≠ 0x5F) = [] then
    .error (.argumentError
      (utf16 "serial \"" ++ serial ++ utf16 "\" has no usable characters"))
  else .ok (s.path safe)

/-- `toRadixString(8).padLeft(3, '0')`. -/
def octal (mode : Nat) : Text := Utf16.encode ((Nat.toDigits 8 mode).leftpad 3 '0')

def read (s : FileCredentialStore) (serial : Text) :
    Except StoreError (Option CohnCredentials) :=
  match s.fileFor serial with
  | .error e => .error e
  | .ok f =>
      match s.files f with
      | none => .ok none
      | some file =>
          let mode := file.mode &&& 0x1FF
          if mode &&& 0x03F ≠ 0 then
            .error (.stateError (f ++ utf16 " is mode " ++ octal mode ++
              utf16 ", which is readable beyond its owner. Refusing to use it; " ++
              utf16 "delete it and provision again."))
          else
            match (readAsString file.bytes).bind Json.decode |>.bind CohnCredentials.fromJson with
            | some credentials => .ok (some credentials)
            | none => .error .malformed

/-- The directory is there before the serial is looked at. -/
def write (s : FileCredentialStore) (serial : Text) (credentials : CohnCredentials) :
    FileCredentialStore × Except StoreError Unit :=
  let s := { s with dirMode := some 0o700 }
  match s.fileFor serial with
  | .error e => (s, .error e)
  | .ok f =>
      let file := (s.files f).getD { mode := s.created, bytes := [] }
      let file := { file with mode := 0o600 }
      let file := { file with bytes := writeAsString (Json.encode credentials.toJson) }
      ({ s with files := Function.update s.files f (some file) }, .ok ())

def delete (s : FileCredentialStore) (serial : Text) :
    FileCredentialStore × Except StoreError Unit :=
  match s.fileFor serial with
  | .error e => (s, .error e)
  | .ok f =>
      (if (s.files f).isSome then { s with files := Function.update s.files f none } else s,
        .ok ())

/-! ## Runs -/

abbrev Op := Keyed.Op Text CohnCredentials

/-- The store behind an operation. -/
def step (s : FileCredentialStore) : Op → FileCredentialStore
  | .read _ => s
  | .write serial credentials => (s.write serial credentials).1
  | .delete serial => (s.delete serial).1

def run (s : FileCredentialStore) (ops : List Op) : FileCredentialStore := ops.foldl step s

/-- The store does not reject the serial. -/
def Accepts (serial : Text) : Prop :=
  ∀ s : FileCredentialStore, ∃ f, s.fileFor serial = .ok f

end FileCredentialStore

end GoproNative
