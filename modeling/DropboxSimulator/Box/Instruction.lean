import Mathlib.Data.List.DropRight
import DropboxSimulator.Library.Sharing
import DropboxSimulator.Box.Inotify

/-!
# Instruction — the object that the console and the inotify thread of a Box share

`Box::instruction` is static and has no lock.  The console thread resets it, fills it from a line
and lets it send what the line asks for; the inotify thread puts the name of a changed file into it
and lets it send the change.  Each function is the list of its accesses to `path` and `filename`,
and the accesses of the two threads come in any order.

`command_name` and `command_id` are used by the console thread only.
-/

namespace DropboxSimulator
namespace Box

open Library

/-! ## The object -/

/-- The fields of `Instruction` that both threads use. -/
structure Instruction where
  path : CharArray 200
  filename : CharArray 50
  deriving DecidableEq

/-- A string in the object: in `path` from a position on, or in `filename`. -/
inductive Place
  | path (offset : Nat)
  | filename
  deriving DecidableEq

def Place.content (i : Instruction) : Place → Bytes
  | .path offset => cString (i.path.val.drop offset)
  | .filename => i.filename.string

/-- A request to the server; an upload sends the content of `file` under `name`. -/
inductive SentRequest
  | upload (file name : Bytes)
  | download (name : Bytes)
  | delete (name : Bytes)
  deriving DecidableEq

/-- One access to the object. -/
inductive Access
  /-- the loop of `reset` over `filename` -/
  | clearFilename
  /-- the loop of `reset` over `path` -/
  | clearPath
  /-- `strncpy(path, src, strlen(src))` -/
  | strncpyPath (src : Bytes)
  | strcpyPath (src : Bytes)
  | strcpyFilename (src : Bytes)
  /-- `strcpy(filepath, path)` -/
  | copyPath
  /-- `strcat(filepath, filename)` -/
  | catFilename
  /-- `ifstream file_read(filepath)` and the reading of the file -/
  | openFile
  | sendFile
  | downloadFile
  | deleteFile
  deriving DecidableEq

namespace Access

theorem length_zeroes (n : Nat) : (List.replicate n (0 : UInt8)).length = n :=
  List.length_replicate

/-- A character array of zeroes. -/
def zeroed (n : Nat) : CharArray n :=
  ⟨List.replicate n 0, length_zeroes n⟩

/-- `strncpy` of all of a string: no terminator is written behind it. -/
def strncpy {n : Nat} (dst : CharArray n) (src : Bytes) : Option (CharArray n) :=
  if h : src.length ≤ n then
    some ⟨src ++ dst.val.drop src.length, by
      have hd := dst.property
      simp only [List.length_append, List.length_drop]
      omega⟩
  else
    none

/-- The object after an access. -/
def write (a : Access) (i : Instruction) : Option Instruction :=
  match a with
  | clearFilename => some { i with filename := zeroed 50 }
  | clearPath => some { i with path := zeroed 200 }
  | strncpyPath src => (strncpy i.path src).map fun path => { i with path := path }
  | strcpyPath src => (i.path.strcpy src).map fun path => { i with path := path }
  | strcpyFilename src =>
      (i.filename.strcpy src).map fun filename => { i with filename := filename }
  | _ => some i

/-- `filepath` after an access. -/
def filepath (a : Access) (i : Instruction) (path : Bytes) : Bytes :=
  match a with
  | copyPath => i.path.string
  | catFilename => path ++ i.filename.string
  | _ => path

/-- What an access sends to the server. -/
def request (a : Access) (i : Instruction) (path : Bytes) : Option SentRequest :=
  match a with
  | sendFile => some (.upload path i.filename.string)
  | downloadFile => some (.download i.filename.string)
  | deleteFile => some (.delete i.filename.string)
  | _ => none

/-- The string of the object that an access reads.  `strncpy` leaves what stands behind the copy. -/
def reads : Access → Option Place
  | strncpyPath src => some (.path src.length)
  | copyPath => some (.path 0)
  | catFilename | sendFile | downloadFile | deleteFile => some .filename
  | _ => none

/-- The strings of the object that are known after an access from what it read. -/
def decides : Access → Place → Bool
  | clearFilename, .filename => true
  | clearPath, .path _ => true
  | strncpyPath src, .path offset => offset ≤ src.length
  | strcpyPath src, .path offset => offset ≤ src.length
  | strcpyFilename _, .filename => true
  | _, _ => false

end Access

/-- The accesses of the two threads. -/
def accesses : Accesses Access Instruction Bytes SentRequest Place Bytes where
  write := Access.write
  keep := Access.filepath
  send := Access.request
  reads := Access.reads
  decides := Access.decides
  content := fun place i => place.content i

/-! ## The functions of the object -/

namespace Instruction

def reset : List Access :=
  [.clearFilename, .clearPath]

def setFilename (filename : Bytes) : List Access :=
  [.strcpyFilename filename]

def setPath (path : Bytes) : List Access :=
  [.strcpyPath path]

def uploadFile : List Access :=
  [.copyPath, .catFilename, .openFile, .sendFile]

def downloadFile : List Access :=
  [.downloadFile]

def deleteFile : List Access :=
  [.deleteFile]

end Instruction

/-! ## Lines -/

def upload : Bytes := [117, 112, 108, 111, 97, 100]
def download : Bytes := [100, 111, 119, 110, 108, 111, 97, 100]
def delete : Bytes := [100, 101, 108, 101, 116, 101]
def listServer : Bytes := [108, 105, 115, 116, 95, 115, 101, 114, 118, 101, 114]
def listClient : Bytes := [108, 105, 115, 116, 95, 99, 108, 105, 101, 110, 116]
def getSyncDir : Bytes := [103, 101, 116, 95, 115, 121, 110, 99, 95, 100, 105, 114]
def exit : Bytes := [101, 120, 105, 116]

/-- The space and the slash. -/
abbrev space : UInt8 := 32
abbrev slash : UInt8 := 47

/-- `"sync_dir/"`. -/
def syncDirPath : Bytes :=
  [115, 121, 110, 99, 95, 100, 105, 114, 47]

/-- `strtok(line, " ")`, and what `strtok(NULL, "")` returns after it. -/
def strtok (line : Bytes) : Option (Bytes × Option Bytes) :=
  match line.dropWhile (· = space) with
  | [] => none
  | start =>
      let token := start.takeWhile (· ≠ space)
      match start.drop (token.length + 1) with
      | [] => some (token, none)
      | rest => some (token, some rest)

/-- A command of the console, with the file it names. -/
inductive Order
  | upload (file : Bytes)
  | download (name : Bytes)
  | delete (name : Bytes)
  | listServer
  | listClient
  | getSyncDir
  | exit
  | invalidCommand
  deriving DecidableEq

/-- The command in a line; `none` where `prepare` uses a null pointer or leaves `command_name`. -/
def Order.ofLine (line : Bytes) : Option Order :=
  match strtok line with
  | none => none
  | some (commandName, argument) =>
      if 50 ≤ commandName.length then
        none
      else if commandName = Box.upload then
        argument.map fun line =>
          if line.head? = some slash then .upload line else .invalidCommand
      else if commandName = Box.download then
        argument.map .download
      else if commandName = Box.delete then
        argument.map .delete
      else if commandName = Box.listServer then
        some .listServer
      else if commandName = Box.listClient then
        some .listClient
      else if commandName = Box.getSyncDir then
        some .getSyncDir
      else if commandName = Box.exit then
        some .exit
      else
        some .invalidCommand

namespace Order

/-- What stands behind the last slash of a file, and what stands before it with the slash. -/
def name (file : Bytes) : Bytes :=
  file.rtakeWhile (· ≠ slash)

def folder (file : Bytes) : Bytes :=
  file.rdropWhile (· ≠ slash)

/-- `prepare`, for the command in the line. -/
def prepare : Order → List Access
  | .upload file => [.strncpyPath (folder file), .strcpyFilename (name file)]
  | .download name | .delete name => [.strcpyFilename name, .strcpyPath []]
  | .invalidCommand => []
  | _ => [.strcpyPath [], .strcpyFilename []]

/-- What `th_func_monitor_console` does with the object for a command. -/
def execute : Order → List Access
  | .upload _ => Instruction.uploadFile
  | .download _ => Instruction.downloadFile
  | .delete _ => Instruction.deleteFile
  | _ => []

/-- One round of `th_func_monitor_console`. -/
def todo (order : Order) : List Access :=
  Instruction.reset ++ order.prepare ++ order.execute

/-- The request that a command is. -/
def asks : Order → Option SentRequest
  | .upload file => some (.upload file (name file))
  | .download name => some (.download name)
  | .delete name => some (.delete name)
  | _ => none

end Order

namespace Request

/-- What `th_func_inotify` does with the object for an event. -/
def todo : Request → List Access
  | .upload name =>
      Instruction.setFilename name ++ Instruction.setPath syncDirPath ++ Instruction.uploadFile
  | .delete name =>
      Instruction.setFilename name ++ Instruction.setPath syncDirPath ++ Instruction.deleteFile

/-- The request that an event is. -/
def asks : Request → SentRequest
  | .upload name => .upload (syncDirPath ++ name) name
  | .delete name => .delete name

end Request

/-! ## The two threads -/

/-- The threads that use the object. -/
inductive Worker
  | console
  | inotify
  deriving DecidableEq

def Worker.other : Worker → Worker
  | .console => .inotify
  | .inotify => .console

/-- What a thread is at: the request of its line or event, what it still has to do, and
`filepath`. -/
structure Work where
  asks : Option SentRequest
  todo : List Access
  filepath : Bytes
  deriving DecidableEq

/-- A thread that waits for a line or an event. -/
def Work.idle : Work where
  asks := none
  todo := []
  filepath := []

/-- The two threads and the object.  `sent` lists the requests to the server, each with the one
that the line or event was. -/
structure Shared where
  instruction : Instruction
  work : Worker → Work
  exitCommandTyped : Bool
  sent : List (Option SentRequest × SentRequest)

namespace Shared

/-- A Box that has just been started. -/
def initial : Shared where
  instruction := { path := Access.zeroed 200, filename := Access.zeroed 50 }
  work := fun _ => .idle
  exitCommandTyped := false
  sent := []

/-- The buffer `line` after `scanf`.  Nothing is scanned from an empty line, and then the buffer
starts with an `a`, as no command does. -/
def scanned (typed : Bytes) : Bytes :=
  if typed = [] then [97] else typed

/-- A line is typed, an event is taken from the batch, or a thread makes its next access; in
`absent` the thread does not find its file, or cannot read it. -/
inductive Step
  | line (typed : Bytes)
  | event (e : Event)
  | access (w : Worker)
  | absent (w : Worker)
  deriving DecidableEq

/-- A thread starts with a line or an event. -/
def start (s : Shared) (w : Worker) (asks : Option SentRequest) (todo : List Access) : Shared :=
  { s with work := Function.update s.work w { asks := asks, todo := todo, filepath := [] } }

/-- A thread makes an access, after which the object is `i` and `rest` is left to do. -/
def accessed (s : Shared) (w : Worker) (a : Access) (rest : List Access) (i : Instruction) :
    Shared :=
  { s with
    instruction := i
    work := Function.update s.work w
      { asks := (s.work w).asks
        todo := rest
        filepath := a.filepath s.instruction (s.work w).filepath }
    sent := s.sent ++
      (a.request s.instruction (s.work w).filepath).toList.map fun sent => ((s.work w).asks, sent) }

/-- What is typed and what a file can be called. -/
def NulFree (bs : Bytes) : Prop :=
  ∀ b ∈ bs, b ≠ 0

instance : DecidablePred NulFree := fun _ =>
  List.decidableBAll _ _

/-- One step.  The console thread takes no line after `exit`, and the inotify thread goes on with
its batch. -/
def step (s : Shared) : Step → Option Shared
  | .line typed =>
      if (s.work .console).todo = [] ∧ s.exitCommandTyped = false ∧ NulFree typed ∧
          typed.length < 200 then
        (Order.ofLine (scanned typed)).map fun order =>
          { s.start .console order.asks order.todo with exitCommandTyped := order = .exit }
      else
        none
  | .event e =>
      if (s.work .inotify).todo = [] ∧ NulFree e.name then
        e.request.map fun r => s.start .inotify (some r.asks) r.todo
      else
        none
  | .access w =>
      match (s.work w).todo with
      | a :: rest => (a.write s.instruction).map (s.accessed w a rest)
      | [] => none
  | .absent w =>
      match (s.work w).todo with
      | .openFile :: _ => some (s.start w none [])
      | _ => none

/-- No access changes a string that the other thread is still to read. -/
def Undisturbing (s : Shared) : Step → Prop
  | .access w =>
      match (s.work w).todo with
      | a :: _ =>
          ∀ i ∈ a.write s.instruction, accesses.Agree (s.work w.other).todo i s.instruction
      | [] => True
  | _ => True

instance (s : Shared) : DecidablePred s.Undisturbing := fun l =>
  match l with
  | .access w =>
      match h : (s.work w).todo with
      | a :: _ =>
          decidable_of_iff
            (∀ i ∈ a.write s.instruction, accesses.Agree (s.work w.other).todo i s.instruction)
            (by simp [Undisturbing, h])
      | [] => .isTrue (by simp [Undisturbing, h])
  | .line _ | .event _ | .absent _ => .isTrue trivial

end Shared

section Places

variable {i j i' j' : Instruction} {a : Access} {place : Place}

/-- After `strcpy` the string from a position in the copy on is known, and behind the copy the
array is as it was. -/
theorem content_strcpy {n : Nat} {dst dst' : CharArray n} {src : Bytes} {offset : Nat}
    (h : dst.strcpy src = some dst') :
    cString (dst'.val.drop offset) =
      if offset ≤ src.length then cString (src.drop offset)
      else cString (dst.val.drop offset) := by
  unfold CharArray.strcpy at h
  split at h
  · cases h
    split
    · next hin =>
        rw [List.drop_append_of_le_length hin, cString_append_zero]
    · next hbehind =>
        have hcut : (src ++ 0 :: dst.val.drop (src.length + 1)).drop offset =
            dst.val.drop offset := by
          obtain ⟨k, rfl⟩ : ∃ k, offset = src.length + 1 + k := ⟨offset - src.length - 1, by omega⟩
          simp [List.drop_append, List.drop_eq_nil_of_le, Nat.add_assoc, Nat.add_comm 1]
        rw [hcut]
  · cases h

theorem string_strcpy {n : Nat} {dst dst' : CharArray n} {src : Bytes}
    (h : dst.strcpy src = some dst') : dst'.string = cString src := by
  have hfirst : cString (dst'.val.drop 0) = _ := content_strcpy h
  simpa [CharArray.string] using hfirst

theorem content_strncpy {n : Nat} {dst dst' : CharArray n} {src : Bytes} {offset : Nat}
    (h : Access.strncpy dst src = some dst') :
    cString (dst'.val.drop offset) =
      if offset ≤ src.length then cString (src.drop offset ++ dst.val.drop src.length)
      else cString (dst.val.drop offset) := by
  unfold Access.strncpy at h
  split at h
  · cases h
    split
    · next hin =>
        rw [List.drop_append_of_le_length hin]
    · next hbehind =>
        have hcut : (src ++ dst.val.drop src.length).drop offset = dst.val.drop offset := by
          obtain ⟨k, rfl⟩ : ∃ k, offset = src.length + k := ⟨offset - src.length, by omega⟩
          simp [List.drop_append, List.drop_eq_nil_of_le]
        rw [hcut]
  · cases h

/-- What an access leaves in a place follows from what it read and what was there. -/
theorem content_write_congr (hi : a.write i = some i') (hj : a.write j = some j')
    (hreads : ∀ p ∈ a.reads, Place.content i p = Place.content j p)
    (hplace : a.decides place = false → place.content i = place.content j) :
    place.content i' = place.content j' := by
  cases a with
  | clearFilename =>
      cases hi
      cases hj
      cases place with
      | path offset =>
          exact hplace rfl
      | filename =>
          rfl
  | clearPath =>
      cases hi
      cases hj
      cases place with
      | path offset =>
          rfl
      | filename =>
          exact hplace rfl
  | strncpyPath src =>
      rw [Access.write, Option.map_eq_some_iff] at hi hj
      rcases hi with ⟨path, hpath, rfl⟩
      rcases hj with ⟨path', hpath', rfl⟩
      cases place with
      | path offset =>
          simp only [Place.content, content_strncpy hpath, content_strncpy hpath']
          split
          · -- what stands behind the copy is what was read
            exact cString_append_congr (hreads _ rfl)
          · next hbehind =>
              exact hplace (by simpa [Access.decides] using hbehind)
      | filename =>
          exact hplace rfl
  | strcpyPath src =>
      rw [Access.write, Option.map_eq_some_iff] at hi hj
      rcases hi with ⟨path, hpath, rfl⟩
      rcases hj with ⟨path', hpath', rfl⟩
      cases place with
      | path offset =>
          simp only [Place.content, content_strcpy hpath, content_strcpy hpath']
          split
          · rfl
          · next hbehind =>
              exact hplace (by simpa [Access.decides] using hbehind)
      | filename =>
          exact hplace rfl
  | strcpyFilename src =>
      rw [Access.write, Option.map_eq_some_iff] at hi hj
      rcases hi with ⟨filename, hfilename, rfl⟩
      rcases hj with ⟨filename', hfilename', rfl⟩
      cases place with
      | path offset =>
          exact hplace rfl
      | filename =>
          simp [Place.content, string_strcpy hfilename, string_strcpy hfilename']
  | copyPath | catFilename | openFile | sendFile | downloadFile | deleteFile =>
      cases hi
      cases hj
      exact hplace rfl

/-- The threads use the object only through the strings that their accesses name. -/
theorem lawful : accesses.Lawful where
  send_congr := by
    intro a i j path h
    cases a <;> simp_all [accesses, Access.request, Access.reads, Place.content]
  keep_congr := by
    intro a i j path h
    cases a <;>
      simp_all [accesses, Access.filepath, Access.reads, Place.content, CharArray.string]
  write_isSome := by
    intro a i j
    cases a <;> simp [accesses, Access.write, Access.strncpy, CharArray.strcpy] <;> split <;> simp
  content_congr := content_write_congr

end Places

section Rounds

variable {i i' : Instruction} {path : Bytes} {rest : List Access} {r : SentRequest}

/-- `upload_file` on its own sends the file that the object names. -/
theorem eq_of_mem_uploadFile (h : r ∈ accesses.alone i path Instruction.uploadFile) :
    r = .upload (i.path.string ++ i.filename.string) i.filename.string :=
  List.mem_singleton.1 h

theorem eq_of_mem_downloadFile (h : r ∈ accesses.alone i path Instruction.downloadFile) :
    r = .download i.filename.string :=
  List.mem_singleton.1 h

theorem eq_of_mem_deleteFile (h : r ∈ accesses.alone i path Instruction.deleteFile) :
    r = .delete i.filename.string :=
  List.mem_singleton.1 h

/-- After `set_filename` the object holds the name, and its path is as it was. -/
theorem mem_alone_setFilename {name : Bytes} (hname : ∀ b ∈ name, b ≠ 0)
    (h : r ∈ accesses.alone i path (Instruction.setFilename name ++ rest)) :
    ∃ i', i'.filename.string = name ∧ i'.path = i.path ∧ r ∈ accesses.alone i' path rest := by
  rcases Accesses.mem_alone_cons.1 h with hsend | ⟨i', hwrite, hrest⟩
  · cases hsend
  · rcases Option.map_eq_some_iff.1 hwrite with ⟨filename, hfilename, rfl⟩
    exact ⟨{ i with filename := filename }, CharArray.string_of_strcpy hname hfilename, rfl, hrest⟩

/-- After `set_path` the object holds the path, and its name is as it was. -/
theorem mem_alone_setPath {folder : Bytes} (hfolder : ∀ b ∈ folder, b ≠ 0)
    (h : r ∈ accesses.alone i path (Instruction.setPath folder ++ rest)) :
    ∃ i', i'.path.string = folder ∧ i'.filename = i.filename ∧
      r ∈ accesses.alone i' path rest := by
  rcases Accesses.mem_alone_cons.1 h with hsend | ⟨i', hwrite, hrest⟩
  · cases hsend
  · rcases Option.map_eq_some_iff.1 hwrite with ⟨copy, hcopy, rfl⟩
    exact ⟨{ i with path := copy }, CharArray.string_of_strcpy hfolder hcopy, rfl, hrest⟩

/-- After `reset` the path is all zeroes. -/
theorem mem_alone_reset (h : r ∈ accesses.alone i path (Instruction.reset ++ rest)) :
    ∃ i', i'.path = Access.zeroed 200 ∧ r ∈ accesses.alone i' path rest := by
  rcases Accesses.mem_alone_cons.1 h with hsend | ⟨i', hwrite, hrest⟩
  · cases hsend
  · cases hwrite
    rcases Accesses.mem_alone_cons.1 hrest with hsend | ⟨i', hwrite, hrest⟩
    · cases hsend
    · cases hwrite
      exact ⟨{ path := Access.zeroed 200, filename := Access.zeroed 50 }, rfl, hrest⟩

/-- A string copied without its terminator into zeroes. -/
theorem string_strncpy_zeroed {n : Nat} {dst : CharArray n} {src : Bytes}
    (hsrc : ∀ b ∈ src, b ≠ 0) (h : Access.strncpy (Access.zeroed n) src = some dst) :
    dst.string = src := by
  have hzeroes : cString ((List.replicate n (0 : UInt8)).drop src.length) = cString [] := by
    rw [List.drop_replicate, cString_replicate_zero]
    rfl
  have hcopy : cString (dst.val.drop 0) = _ := content_strncpy h
  calc
    dst.string = cString (src ++ (List.replicate n (0 : UInt8)).drop src.length) := by
      simpa [CharArray.string, Access.zeroed] using hcopy
    _ = cString (src ++ []) := cString_append_congr hzeroes
    _ = src := by simpa using cString_of_nulFree hsrc

/-- After `strncpy` into zeroes the object holds the copy. -/
theorem mem_alone_strncpy {folder : Bytes} (hfolder : ∀ b ∈ folder, b ≠ 0)
    (hzero : i.path = Access.zeroed 200)
    (h : r ∈ accesses.alone i path (.strncpyPath folder :: rest)) :
    ∃ i', i'.path.string = folder ∧ r ∈ accesses.alone i' path rest := by
  rcases Accesses.mem_alone_cons.1 h with hsend | ⟨i', hwrite, hrest⟩
  · cases hsend
  · rcases Option.map_eq_some_iff.1 hwrite with ⟨copy, hcopy, rfl⟩
    rw [hzero] at hcopy
    exact ⟨{ i with path := copy }, string_strncpy_zeroed hfolder hcopy, hrest⟩

/-- The file that a command names has no NUL. -/
def Order.NulFree : Order → Prop
  | .upload file => ∀ b ∈ file, b ≠ 0
  | .download name | .delete name => ∀ b ∈ name, b ≠ 0
  | _ => True

/-- A round of the console thread on its own sends the request that the command is. -/
theorem Order.asks_of_alone {order : Order} (horder : order.NulFree)
    (h : r ∈ accesses.alone i path order.todo) : order.asks = some r := by
  rcases mem_alone_reset h with ⟨j, hzero, h⟩
  cases order with
  | upload file =>
      have hfolder : ∀ b ∈ folder file, b ≠ 0 := by
        intro b hb
        exact horder b ((List.rdropWhile_prefix _ _).subset hb)
      have hname : ∀ b ∈ name file, b ≠ 0 := by
        intro b hb
        exact horder b ((List.rtakeWhile_suffix _ _).subset hb)
      have hsplit : folder file ++ name file = file := List.rdropWhile_append_rtakeWhile
      rcases mem_alone_strncpy hfolder hzero h with ⟨k, hpath, h⟩
      rcases mem_alone_setFilename hname h with ⟨k', hfilename, hkeep, h⟩
      rw [eq_of_mem_uploadFile h, hkeep, hpath, hfilename, hsplit]
      rfl
  | download name =>
      rcases mem_alone_setFilename horder h with ⟨k, hfilename, _, h⟩
      rcases mem_alone_setPath (by simp) h with ⟨k', _, hkeep, h⟩
      rw [eq_of_mem_downloadFile h, hkeep, hfilename]
      rfl
  | delete name =>
      rcases mem_alone_setFilename horder h with ⟨k, hfilename, _, h⟩
      rcases mem_alone_setPath (by simp) h with ⟨k', _, hkeep, h⟩
      rw [eq_of_mem_deleteFile h, hkeep, hfilename]
      rfl
  | listServer | listClient | getSyncDir | exit =>
      -- the object is cleared and nothing is sent from it
      rcases mem_alone_setPath (by simp) h with ⟨k, _, _, h⟩
      rcases mem_alone_setFilename (by simp) h with ⟨k', _, _, h⟩
      cases h
  | invalidCommand =>
      cases h

theorem nulFree_syncDirPath : ∀ b ∈ syncDirPath, b ≠ 0 := by
  simp [syncDirPath]

def Request.name : Request → Bytes
  | .upload name | .delete name => name

/-- What the inotify thread does for an event sends, on its own, the request that the event is. -/
theorem Request.asks_of_alone {request : Request} (hname : ∀ b ∈ request.name, b ≠ 0)
    (h : r ∈ accesses.alone i path request.todo) : request.asks = r := by
  cases request with
  | upload name =>
      rcases mem_alone_setFilename hname h with ⟨j, hfilename, _, h⟩
      rcases mem_alone_setPath nulFree_syncDirPath h with ⟨k, hpath, hkeep, h⟩
      rw [eq_of_mem_uploadFile h, hkeep, hpath, hfilename]
      rfl
  | delete name =>
      rcases mem_alone_setFilename hname h with ⟨j, hfilename, _, h⟩
      rcases mem_alone_setPath nulFree_syncDirPath h with ⟨k, _, hkeep, h⟩
      rw [eq_of_mem_deleteFile h, hkeep, hfilename]
      rfl

theorem Event.name_request {e : Event} {request : Request} (h : e.request = some request) :
    request.name = e.name := by
  unfold Event.request at h
  split at h
  · cases h
    rfl
  · cases h
    rfl
  · split at h
    · cases h
    · cases h
      rfl
  · cases h
    rfl

end Rounds

section Lines

variable {line : Bytes} {token rest : Bytes} {order : Order}

/-- What `strtok` leaves of a line is a part of it. -/
theorem subset_of_strtok (h : strtok line = some (token, some rest)) : rest ⊆ line := by
  unfold strtok at h
  split at h
  · cases h
  · simp only at h
    split at h
    · cases h
    · cases h
      intro b hb
      exact (List.dropWhile_suffix _).subset (List.mem_of_mem_drop hb)

/-- The file that a command names is a part of its line. -/
theorem Order.nulFree_ofLine (hline : ∀ b ∈ line, b ≠ 0) (h : Order.ofLine line = some order) :
    order.NulFree := by
  unfold Order.ofLine at h
  split at h
  · cases h
  · next commandName argument htoken =>
      have hargument : ∀ rest ∈ argument, ∀ b ∈ rest, b ≠ 0 := by
        intro rest hrest b hb
        rw [Option.mem_def.1 hrest] at htoken
        exact hline b (subset_of_strtok htoken hb)
      split at h
      · cases h
      · split at h
        · rcases Option.map_eq_some_iff.1 h with ⟨file, hfile, rfl⟩
          split
          · exact hargument file hfile
          · trivial
        · split at h
          · rcases Option.map_eq_some_iff.1 h with ⟨name, hname, rfl⟩
            exact hargument name hname
          · split at h
            · rcases Option.map_eq_some_iff.1 h with ⟨name, hname, rfl⟩
              exact hargument name hname
            · -- the other commands name no file
              repeat' split at h
              all_goals
                cases h
                trivial

end Lines

namespace Shared

section Runs

variable {s t : Shared} {l : Step} {w : Worker}

/-- What each thread would send if it were left alone is what its line or event was, and so is all
that was sent. -/
structure Faithful (s : Shared) : Prop where
  alone : ∀ w, ∀ r ∈ accesses.alone s.instruction (s.work w).filepath (s.work w).todo,
    (s.work w).asks = some r
  sent : ∀ entry ∈ s.sent, entry.1 = some entry.2

theorem Faithful.initial : Faithful Shared.initial where
  alone := by
    intro w r hr
    cases hr
  sent := by
    intro entry hentry
    cases hentry

/-- A thread that starts with a line or an event. -/
theorem Faithful.start (hs : Faithful s) {asks : Option SentRequest} {todo : List Access}
    (hasks : ∀ r ∈ accesses.alone s.instruction [] todo, asks = some r) :
    Faithful (s.start w asks todo) where
  alone := by
    intro v
    by_cases hv : v = w
    · subst hv
      simpa [Shared.start] using hasks
    · simpa [Shared.start, hv] using hs.alone v
  sent := hs.sent

theorem Worker.eq_other {v w : Worker} (h : v ≠ w) : v = w.other := by
  cases v <;> cases w <;> simp_all [Worker.other]

/-- An access that leaves the strings of the other thread as they were. -/
theorem Faithful.accessed (hs : Faithful s) {a : Access} {rest : List Access} {i : Instruction}
    (htodo : (s.work w).todo = a :: rest) (hwrite : a.write s.instruction = some i)
    (hagree : accesses.Agree (s.work w.other).todo i s.instruction) :
    Faithful (s.accessed w a rest i) where
  alone := by
    intro v
    by_cases hv : v = w
    · -- what the thread itself sends later it would have sent before
      subst hv
      intro r hr
      have hr : r ∈ accesses.alone i (a.filepath s.instruction (s.work v).filepath) rest := by
        simpa [Shared.accessed] using hr
      have hlater : r ∈ accesses.alone s.instruction (s.work v).filepath (s.work v).todo := by
        rw [htodo]
        exact Accesses.mem_alone_cons.2 (.inr ⟨i, hwrite, hr⟩)
      simpa [Shared.accessed] using hs.alone v r hlater
    · -- the other thread finds all it reads as it was
      have hother := Worker.eq_other hv
      subst hother
      have hsame := Accesses.alone_congr lawful (s.work w.other).filepath hagree
      simpa [Shared.accessed, hv, hsame] using hs.alone w.other
  sent := by
    intro entry hentry
    rcases List.mem_append.1 hentry with hentry | hentry
    · exact hs.sent entry hentry
    · rcases List.mem_map.1 hentry with ⟨r, hr, rfl⟩
      refine hs.alone w r ?_
      rw [htodo]
      exact Accesses.mem_alone_cons.2 (.inl (Option.mem_toList.1 hr))

/-- A step that changes no string the other thread is still to read. -/
theorem Faithful.step (hs : Faithful s) (hok : s.Undisturbing l) (h : s.step l = some t) :
    Faithful t := by
  cases l with
  | line typed =>
      simp only [Shared.step] at h
      split at h
      · next hguard =>
          rcases Option.map_eq_some_iff.1 h with ⟨order, horder, rfl⟩
          have hscanned : ∀ b ∈ scanned typed, b ≠ 0 := by
            unfold scanned
            split
            · simp
            · exact hguard.2.2.1
          have hfree := Order.nulFree_ofLine hscanned horder
          have hstart : Faithful (s.start .console order.asks order.todo) :=
            hs.start fun r hr => Order.asks_of_alone hfree hr
          exact ⟨hstart.alone, hstart.sent⟩
      · cases h
  | event e =>
      simp only [Shared.step] at h
      split at h
      · next hguard =>
          rcases Option.map_eq_some_iff.1 h with ⟨request, hrequest, rfl⟩
          have hname : ∀ b ∈ request.name, b ≠ 0 := by
            rw [Event.name_request hrequest]
            exact hguard.2
          exact hs.start fun r hr => congrArg some (Request.asks_of_alone hname hr)
      · cases h
  | access w =>
      simp only [Shared.step] at h
      cases htodo : (s.work w).todo with
      | nil =>
          simp [htodo] at h
      | cons a rest =>
          simp only [htodo] at h
          rcases Option.map_eq_some_iff.1 h with ⟨i, hwrite, rfl⟩
          have hagree : accesses.Agree (s.work w.other).todo i s.instruction := by
            simp only [Undisturbing, htodo] at hok
            exact hok i hwrite
          exact hs.accessed htodo hwrite hagree
  | absent w =>
      simp only [Shared.step] at h
      split at h
      · cases h
        refine hs.start ?_
        intro r hr
        cases hr
      · cases h

/-- In a run in which no access changes a string that the other thread is still to read, every
request names the file of the line or event that started it. -/
theorem requests_name_their_file (h : Reaches Shared.step Undisturbing Shared.initial s) :
    ∀ entry ∈ s.sent, entry.1 = some entry.2 := by
  have hfaithful : Faithful s :=
    h.invariant Faithful.initial fun t l u ht hok hl => ht.step hok hl
  exact hfaithful.sent

/-- `delete f` is typed, and handled before a change of `g` is. -/
def oneAfterTheOther : List Step :=
  .line (delete ++ [32, 102]) :: List.replicate 5 (.access .console) ++
    .event { mask := .movedFrom, name := [103], origin := .user } ::
      List.replicate 3 (.access .inotify)

theorem requests_name_their_file_oneAfterTheOther :
    ∃ s, runWhile Shared.step Undisturbing Shared.initial oneAfterTheOther = some s ∧
      s.sent = [(some (.delete [102]), .delete [102]), (some (.delete [103]), .delete [103])] ∧
      ∀ entry ∈ s.sent, entry.1 = some entry.2 := by
  have hsome : (runWhile Shared.step Undisturbing Shared.initial oneAfterTheOther).map Shared.sent =
      some [(some (.delete [102]), .delete [102]), (some (.delete [103]), .delete [103])] := by
    decide +kernel
  rcases Option.map_eq_some_iff.1 hsome with ⟨s, hrun, hsent⟩
  exact ⟨s, hrun, hsent, requests_name_their_file (Reaches.of_runWhile hrun)⟩

/-- `upload /x/f` is typed and prepared, and before it is sent the name of a file `g` that was
changed is put into the object: the console thread uploads `/x/g`. -/
theorem uploads_other_file :
    ∃ s, run Shared.step Shared.initial
        (.line (upload ++ [32, 47, 120, 47, 102]) :: List.replicate 4 (.access .console) ++
          .event { mask := .closeWrite, name := [103], origin := .user } :: .access .inotify ::
            List.replicate 4 (.access .console)) = some s ∧
      s.sent = [(some (.upload [47, 120, 47, 102] [102]), .upload [47, 120, 47, 103] [103])] := by
  have hsome : (run Shared.step Shared.initial
      (.line (upload ++ [32, 47, 120, 47, 102]) :: List.replicate 4 (.access .console) ++
        .event { mask := .closeWrite, name := [103], origin := .user } :: .access .inotify ::
          List.replicate 4 (.access .console))).map Shared.sent =
      some [(some (.upload [47, 120, 47, 102] [102]), .upload [47, 120, 47, 103] [103])] := by
    decide +kernel
  exact Option.map_eq_some_iff.1 hsome

end Runs

end Shared

end Box
end DropboxSimulator
