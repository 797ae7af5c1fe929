import SeedSearch.CommandLine.Help
import SeedSearch.CommandLine.Run
import Std.Time.DateTime

namespace SeedSearch
open CommandLine

private def environment : IO (List (String × String)) := do
  let found ← Settings.Field.all.mapM fun f => do
    let name := ("brogue_scanner_" ++ f.name).map Char.toUpper
    return (← IO.getEnv name).map fun value => (name, value)
  return found.filterMap id

private def fileAt (place name : String) : IO Node := do
  if Node.isCatalogName name then
    match ← (IO.FS.readBinFile place).toBaseIO with
    | .ok octets => return .file octets.toList
    | .error _ => return .barred
  else return .file []

private def folderAt (place : String) : Nat → IO Node
  | 0 => return .empty
  | levels+1 => do
    match ← (do (← IO.FS.realPath place).readDir).toBaseIO with
    | .error _ => return .folder false []
    | .ok entries =>
      return .folder true (← entries.toList.mapM fun e => do
        let below := place ++ "/" ++ e.fileName
        if ← e.path.isDir then return (e.fileName, ← folderAt below levels)
        else return (e.fileName, ← fileAt below e.fileName))

private def direct (way : List String) : List String :=
  way.foldl (fun done name =>
    if name = ".." && done.getLast?.any (· ≠ "..") then done.dropLast else done ++ [name]) []

private def withSettings (tree : Node) : IO Node := do
  match ← (IO.FS.readBinFile Settings.file.text).toBaseIO with
  | .ok octets => return tree.putFile Settings.file octets.toList
  | .error (.permissionDenied ..) => return tree.edit (fun _ => .barred) Settings.file.parts
  | .error _ => return tree

private def treeFor (root : Path) (levels : Nat) : IO Node := do
  let here := direct root.way
  let tree ←
    match ← (do (← IO.FS.realPath root.text).isDir).toBaseIO with
    | .ok true => do
      let node ← folderAt root.text (levels+1)
      let ways := (List.range root.way.length).map fun n => direct (root.way.take n)
      pure ((ways.foldl (fun t way => t.edit id way) Node.empty).edit (fun _ => node) here)
    | _ => pure Node.empty
  withSettings tree

private def shuffle (seed : Nat) (items : List Path) : List Path :=
  (items.foldr (fun item (out, g) =>
    let (n, g) := randNat g 0 out.length
    (out.insertIdx n item, g)) (([] : List Path), mkStdGen seed)).1

private def padded (width : Nat) (n : Int) : String :=
  let digits := toString n
  String.ofList (List.replicate (width - digits.length) '0') ++ digits

private def stamps : IO (String × String) := do
  let now ← Std.Time.Timestamp.now
  let d := Std.Time.PlainDateTime.ofWallTime (.ofNanoseconds now.toNanosecondsSinceUnixEpoch)
  let day := s!"{padded 4 d.year.toInt}-{padded 2 d.month.val}-{padded 2 d.day.val}"
  let clock := s!"{padded 2 d.hour.val}:{padded 2 d.minute.val}:{padded 2 d.second.val}"
  let nanoseconds := d.nanosecond.val
  return (s!"{day} {clock},{padded 3 (nanoseconds / 1000000)} ",
    s!"{day}T{clock}.{padded 6 (nanoseconds / 1000)}+00:00")

private def chunkText (clock stamp : String) : Chunk → String
  | .line l => l.text clock stamp ++ "\n"
  | .text t => t

-- Settings that cannot be used are complained of by the run itself.
private def target (words : List String) (assignments : List (String × String)) : IO (Path × Nat) := do
  let settings := match Settings.load [] assignments (← withSettings .empty) with
    | .ok s => s
    | .error _ => {}
  match Arguments.read words with
  | .ok (.run a) => return (a.folder.getD settings.dataFolder, (a.nesting.getD settings.nestingMax).toNat)
  | _ => return (settings.dataFolder, 0)

end SeedSearch

open SeedSearch CommandLine in
def main (words : List String) : IO UInt32 := do
  let assignments ← environment
  let (root, levels) ← target words assignments
  let tree ← treeFor root levels
  let seed ← IO.rand 0 0x3fffffffffffffff
  match execute words assignments tree (shuffle seed) with
  | .usage e =>
    IO.eprint s!"brogue-scanner: error: {e.message}\n"
    return 2
  | .help =>
    IO.print helpText
    return 0
  | .escape e =>
    IO.eprint s!"error: {e.message}\n"
    return 1
  | .exit o =>
    let (clock, stamp) ← stamps
    IO.print o.out
    IO.eprint (String.join (o.err.map (chunkText clock stamp)))
    return o.code.toUInt32
