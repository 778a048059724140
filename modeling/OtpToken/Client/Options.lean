/-
  OtpToken.Client.Options
  ───────────────────────
  **OPTIONS OF THE HOST AND THEIR FILE.**

  Options are kept in one JSON file of a folder.  A file that is missing or
  cannot be read stands for the default options.  Saving writes a second file
  that only the owner can read and then puts it in place of the first, so
  that a reader never finds half a file.
-/
import OtpToken.Json.Form

namespace OtpToken

/-! ## §1. Options. -/

/-- How a host treats a token. -/
structure Options where
  /-- Refuse responses with a wrong checksum. -/
  verifyCrc : Bool
  /-- The capabilities to go by in place of those that the firmware version
  stands for. -/
  capabilities : Option Capabilities
  deriving DecidableEq

instance : Inhabited Options := ⟨⟨true, none⟩⟩

/-- Every option may be left out. -/
instance : Json.Form Options where
  toJson o :=
    .record [("verifyResponseCrc", Json.toJson o.verifyCrc),
      ("capabilities", Json.toJson o.capabilities)]
  ofJson? j := do
    match ← j.fields? ["verifyResponseCrc", "capabilities"] with
    | [verifyCrc, capabilities] =>
        return ⟨← Json.optional? true verifyCrc, ← Json.optional? none capabilities⟩
    | _ => none

/-! ## §2. Folders. -/

/-- Why a folder could not be written. -/
inductive FolderError where
  /-- The folder is not there. -/
  | notFound
  deriving DecidableEq

/-- A file: its contents and its permission bits. -/
structure File where
  contents : Bytes
  mode : Nat
  deriving DecidableEq

/-- The files of a folder by name. -/
abbrev Folder := List (String × File)

namespace Folder

/-- The names of its files. -/
def names (folder : Folder) : List String := folder.map Prod.fst

/-- The file of a name. -/
def find? (folder : Folder) (name : String) : Option File := folder.lookup name

/-- The folder without the file of a name. -/
def remove (folder : Folder) (name : String) : Folder := folder.filter (·.1 ≠ name)

/-- A file with these contents; a new file can be read by everyone. -/
def write (folder : Folder) (name : String) (contents : Bytes) : Folder :=
  let mode := ((folder.find? name).map File.mode).getD 0o644
  folder.remove name ++ [(name, ⟨contents, mode⟩)]

/-- The folder with other permission bits on one file. -/
def setMode (folder : Folder) (name : String) (mode : Nat) : Folder :=
  folder.map fun (n, file) => (n, if n = name then { file with mode } else file)

/-- The file under a new name, in place of one that had it. -/
def rename (folder : Folder) (old new : String) : Folder :=
  match folder.find? old with
  | some file => (folder.remove old).remove new ++ [(new, file)]
  | none => folder

end Folder

/-! ## §3. The options file. -/

namespace Options

/-- The name of the options file. -/
def fileName : String := "nk-client.json"

/-- The name under which the file is written first. -/
def draftName : String := ".nk-client.json.tmp"

/-- The options in the contents of a file, if there is one. -/
def ofContents (contents : Option Bytes) : Options :=
  ((contents.bind Utf8.decode?).bind (Json.decode? Options)).getD default

/-- The options of a folder. -/
def load (folder : Folder) : Options :=
  ofContents ((folder.find? fileName).map File.contents)

/-- The contents of the file for these options. -/
def contents (o : Options) : Bytes := Utf8.encode (Json.toJson o).pretty

/-- The folder with the options saved in it. -/
def saveIn (o : Options) (folder : Folder) : Folder :=
  let draft := (folder.write draftName o.contents).setMode draftName 0o600
  draft.rename draftName fileName

/-- Saves the options, where there is a folder to save them in. -/
def save (o : Options) : Option Folder → Except FolderError Folder
  | some folder => .ok (o.saveIn folder)
  | none => .error .notFound

end Options

end OtpToken
