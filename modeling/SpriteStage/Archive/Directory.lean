import SpriteStage.Archive.Extra

/-!
The directory of an archive.

An end record, near the end of the archive, says where the directory stands and how many entries it
has. A wide end record may take its place, found through a locator right before the end record.
Bytes in front of the archive are allowed: places in the records count from where the archive itself
begins, which follows from where the directory, or the wide end record, is found. What looks like an
end record and does not lead to a sound directory is passed by.
-/

namespace SpriteStage.Archive

/-- Where a directory stands. -/
structure Directory where
  /-- Where the archive itself begins. -/
  origin : Nat
  start : Nat
  count : Nat
  deriving DecidableEq, Repr

/-- The first of `n` places from a place on that the function accepts. -/
def firstPlace? {α : Type} (f : Nat → Option α) : Nat → Nat → Option α
  | 0, _ => none
  | n + 1, place =>
    match f place with
    | some found => some found
    | none => firstPlace? f n (place + 1)

def hasSignature (data : ByteArray) (signature place : Nat) : Bool :=
  Bytes.word? data place 4 == some signature

structure EndRecord where
  disk : Nat
  directoryDisk : Nat
  countHere : Nat
  count : Nat
  start : Nat
  deriving DecidableEq, Repr

/-- The end record at a place. Its comment must end within the archive. -/
def EndRecord.at? (data : ByteArray) (place : Nat) : Option EndRecord := do
  guard (hasSignature data 0x06054B50 place)
  let commentSize ← Bytes.word? data (place + 20) 2
  guard (place + 22 + commentSize ≤ data.size)
  return {
    disk := ← Bytes.word? data (place + 4) 2
    directoryDisk := ← Bytes.word? data (place + 6) 2
    countHere := ← Bytes.word? data (place + 8) 2
    count := ← Bytes.word? data (place + 10) 2
    start := ← Bytes.word? data (place + 16) 4 }

/-- The directory that an end record at a place speaks of: it begins at the first entry from the
recorded start on. -/
def EndRecord.directory? (data : ByteArray) (place : Nat) (e : EndRecord) : Option Directory := do
  let directory ←
    if e.count = 0 then some ⟨place - e.start, e.start + (place - e.start), e.countHere⟩
    else do
      guard (e.start < place)
      let found ← firstPlace?
        (fun p => if hasSignature data 0x02014B50 p then some p else none)
        (place - 3 - e.start) e.start
      some ⟨found - e.start, found, e.countHere⟩
  guard (e.disk = e.directoryDisk)
  return directory

/-- Where a wide end record should stand. -/
structure Locator where
  directoryDisk : Nat
  start : Nat
  deriving DecidableEq, Repr

def Locator.at? (data : ByteArray) (place : Nat) : Option (Locator × Nat) := do
  guard (hasSignature data 0x07064B50 place)
  let directoryDisk ← Bytes.word? data (place + 4) 4
  let start ← Bytes.word? data (place + 8) 8
  let disks ← Bytes.word? data (place + 16) 4
  return (⟨directoryDisk, start⟩, disks)

structure WideRecord where
  place : Nat
  madeBy : Nat
  needed : Nat
  disk : Nat
  directoryDisk : Nat
  countHere : Nat
  count : Nat
  start : Nat
  deriving DecidableEq, Repr

/-- The wide end record at a place, which reaches to its locator and leaves room for the entries. -/
def WideRecord.at? (data : ByteArray) (locatorPlace : Nat) (l : Locator) (place : Nat) :
    Option WideRecord := do
  guard (hasSignature data 0x06064B50 place)
  let size ← Bytes.word? data (place + 4) 8
  guard (44 ≤ size ∧ place + size + 12 = locatorPlace)
  let record : WideRecord := {
    place := place
    madeBy := ← Bytes.word? data (place + 12) 2
    needed := ← Bytes.word? data (place + 14) 2
    disk := ← Bytes.word? data (place + 16) 4
    directoryDisk := ← Bytes.word? data (place + 20) 4
    countHere := ← Bytes.word? data (place + 24) 8
    count := ← Bytes.word? data (place + 32) 8
    start := ← Bytes.word? data (place + 48) 8 }
  guard (record.directoryDisk = l.directoryDisk)
  guard (record.count * entrySize + record.start ≤ place)
  return record

def WideRecord.directory? (l : Locator) (w : WideRecord) : Option Directory :=
  let origin := w.place - l.start
  if w.countHere ≤ w.count ∧ w.needed ≤ w.madeBy ∧ w.disk = w.directoryDisk then
    some ⟨origin, w.start + origin, w.count⟩
  else none

def Directory.at? (data : ByteArray) (place : Nat) : Option Directory := do
  let e ← EndRecord.at? data place
  let locator :=
    if (e.count = 0xFFFF ∨ e.start = elsewhere) ∧ 20 ≤ place then Locator.at? data (place - 20)
    else none
  match locator with
  | none => e.directory? data place
  | some (l, disks) => do
    let locatorPlace := place - 20
    guard (l.start < locatorPlace ∧ disks ≤ 1)
    let record ← firstPlace? (WideRecord.at? data locatorPlace l) (locatorPlace - l.start) l.start
    record.directory? l

/-- Adds an entry; of entries with one name the last counts, in the place of the first. -/
def addEntry (e : Entry) : List Entry → List Entry
  | [] => [e]
  | f :: rest => if f.name = e.name then e :: rest else f :: addEntry e rest

/-- The given number of entries from a place on, behind those already read. The file of an entry
begins before the directory. -/
def Directory.entriesFrom? (d : Directory) (data : ByteArray) :
    Nat → Nat → List Entry → Option (List Entry)
  | 0, _, taken => some taken
  | n + 1, place, taken => do
    let (e, extra, next) ← entryAt? data place
    let e ← e.amended? extra
    let e := { e with start := e.start + d.origin }
    guard (e.start < d.start)
    d.entriesFrom? data n next (addEntry e taken)

def entriesAt? (data : ByteArray) (place : Nat) : Option (List Entry) := do
  let d ← Directory.at? data place
  d.entriesFrom? data d.count d.start []

/-- The entries by the last end record among the given number of places that leads to them. -/
def lastEntries? (data : ByteArray) : Nat → Option (List Entry)
  | 0 => none
  | place + 1 =>
    match entriesAt? data place with
    | some entries => some entries
    | none => lastEntries? data place

/-- The entries of an archive, in order; no name occurs twice. -/
def entries? (data : ByteArray) : Option (List Entry) :=
  lastEntries? data (data.size - 21)

end SpriteStage.Archive
