import Fray.Demo.Performance

/-! The demonstration as a program. -/

namespace Fray

/-- The directory of configuration files, and in it the one of the demonstration. -/
def configDirectory : IO (Option String) := do
  match (← IO.getEnv "XDG_CONFIG_HOME").filter (·.startsWith "/"), ← IO.getEnv "HOME" with
  | some base, _ => return some (base ++ "/skirmish")
  | none, some home => return some (home ++ "/.config/skirmish")
  | none, none => return none

/-- The text of a file that can be read. -/
def textOf (path : String) : IO (Option String) := do
  try return some (← IO.FS.readFile path) catch _ => return none

/-- The files that the demonstration may ask for. -/
def filesOf (directory : Option String) : IO (List (String × String)) := do
  let settings ← (directory.map (· ++ "/settings.toml")).mapM fun path => return (path, ← textOf path)
  let combat ← ((Settings.load (settings.bind (·.2))).combatPath directory).mapM fun path =>
    return (path, ← textOf path)
  return (settings.toList ++ combat.toList).filterMap fun (path, text) => text.map (path, ·)

end Fray

open Fray in
def main : IO UInt32 := do
  let directory ← configDirectory
  let files ← filesOf directory
  let bytes ← IO.getRandomBytes 8
  let p := Demo.run ⟨directory, fun path => files.lookup path, bytes.foldl (fun n b => 256 * n + b.toUInt64) 0⟩
  if let (some directory, some text) := (directory, p.saved) then
    IO.FS.createDirAll directory
    IO.FS.writeFile (directory ++ "/settings.toml") text
  for line in p.lines do IO.println line
  return if p.ok then 0 else 1
