import Overlay.Settings.Reading
import Overlay.Shader.Reference

/-! Settings from a file. A missing file means the defaults; one that cannot be read or understood
is an error, because guessing would hide it. Shader paths in the file are relative to the directory
the file lies in. -/
namespace Overlay

/-- Why there are no settings. -/
inductive SettingsFileError where
  | unreadable (path : String) (fault : DiskFault)
  | notText (path : String)
  | unusable (path : String) (error : SettingsError)
  deriving DecidableEq, Repr

/-- What is said, from what was attempted inwards to the cause. What exactly is wrong inside a
document is left out. -/
def SettingsFileError.chain : SettingsFileError → List String
  | .unreadable path fault => ["failed to read config " ++ path, fault.message]
  | .notText path => ["failed to read config " ++ path, "stream did not contain valid UTF-8"]
  | .unusable path _ => ["failed to parse config " ++ path]

/-- The settings in a file. -/
def Settings.load (disk : Disk) (path : String) : Except SettingsFileError Settings :=
  match disk.read path with
  | .error .notFound => .ok {}
  | .error fault => .error (.unreadable path fault)
  | .ok bytes =>
    match Text.Utf8.decode? bytes with
    | none => .error (.notText path)
    | some cs =>
      match Settings.parse (String.ofList cs) with
      | .error error => .error (.unusable path error)
      | .ok settings =>
        match Path.parent? path with
        | some base => .ok { settings with overlay := settings.overlay.anchored base }
        | none => .ok settings

end Overlay
