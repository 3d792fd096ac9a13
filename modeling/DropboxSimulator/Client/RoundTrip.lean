import DropboxSimulator.Client.Download
import DropboxSimulator.Client.SendFile
import DropboxSimulator.Library.Duet
import DropboxSimulator.Server.Confinement

/-!
# RoundTrip — what is downloaded is what was uploaded last

Sessions of a user change the files in the user's directory on the server, and a later download
asks for one of them.  The files are those of a tree that the server walks by the paths it puts
together; the command loop is read as in `Client/Session`, and a download as in `Client/Download`.

* `Served`   : sessions one after another, each to its end, and the tree that they leave;
* `downloads_last_upload` : a download after them comes to its end, with the file as the last upload
  of that name has left it.
-/

namespace DropboxSimulator

open Library

/-! ## The server's part of a download, to its end -/

namespace Server

section Serving

variable {ε : Type} {buffers : Buffers} {storage : Storage} {userName : Bytes}

/-- The server performs its part in the download of a file that it has, and notes nothing. -/
theorem performs_serve {packet : CommandPacket} {fileContent : Bytes}
    (hcommand : packet.command = cmdDownload)
    (hfile : storage.files (completePath userName packet.additionalInfo.string) = some fileContent)
    (hpos : 0 < fileContent.length) (hlen : fileContent.length < 2 ^ 31) :
    ∃ m, Performs
      (serve buffers storage userName : ServeState → Request ServeState (Executed ⊕ ε)) .left
      (fun _ => false) m (downloadLines packet fileContent) [] (.loop (.command [])) := by
  have hdispatch : LoopState.dispatch packet.bytes = .download packet.additionalInfo.string := by
    simp only [LoopState.dispatch, CommandPacket.length_bytes, dif_pos, CommandPacket.ofBytes_bytes,
      hcommand]
    rfl
  -- after the last acknowledgement the loop waits for the next command
  have hlast : Performs
      (serve buffers storage userName : ServeState → Request ServeState (Executed ⊕ ε)) .left
      (fun _ => false) 1 [(Side.left.other, ackBytes)] [] (.content []) :=
    .receive ackBytes_ne_nil rfl (Or.inr ⟨by decide, Or.inr (by simp)⟩)
      (.done (perform_command buffers storage userName))
  obtain ⟨m, hcontent⟩ := Performs.writes (k := ServeState.content) (fun _ _ => rfl)
    (sendLargePayloadToSocket fileContent) ⟨1, hlast⟩
  have hsolid := solid_sendLargePayloadToSocket hlen (List.length_pos_iff.1 hpos)
  rw [solid] at hsolid
  rw [hsolid] at hcontent
  -- the client answers the size before anything else is written
  have hturn : ∀ line ∈ (Lines.by .left (sendLargePayloadToSocket fileContent) ++
      [(Side.left.other, ackBytes)]).head?, line.1 = .left := by
    have hne : sendLargePayloadToSocket fileContent ≠ [] := sendLargePayloadToSocket_ne_nil
    rcases List.exists_cons_of_ne_nil hne with ⟨c, rest, hcons⟩
    simp [hcons, Lines.by]
  have hanswer : Performs
      (serve buffers storage userName : ServeState → Request ServeState (Executed ⊕ ε)) .left
      (fun _ => false) (m + 1) ((Side.left.other, ackBytes) ::
        (Lines.by .left (sendLargePayloadToSocket fileContent) ++ [(Side.left.other, ackBytes)])) []
      (.sizeAck fileContent) :=
    .receive ackBytes_ne_nil rfl (Or.inr ⟨by decide, Or.inr hturn⟩) hcontent
  refine Performs.consumes (consumes_command packet) ⟨m + 3, .send ackBytes_ne_nil rfl ?_⟩
  rw [hdispatch]
  refine .send (uint64Bytes_ne_nil _) ?_ hanswer
  simp only [serve, downloadFileCommand, hfile]

end Serving

end Server

namespace Client

open Server (Executed LoopState Buffers terminalThreadFunction Files Plain userLocation pathOf
  completePath)

/-! ## The client's part -/

section Fetching

variable {ε : Type} {buffers : ReceiveBuffers}

/-- The client performs its part, and writes the file once. -/
theorem performs_downloadFile {packet : CommandPacket} {fileContent : Bytes}
    (hpos : 0 < fileContent.length) (hlen : fileContent.length < 2 ^ 31) :
    ∃ m, Performs
      (downloadFile buffers : DownloadState → Request DownloadState (ε ⊕ Downloaded)) .right
      DownloadState.waitsForAck m (Server.downloadLines packet fileContent)
      [Sum.inr { payloadSize := fileContent.length, content := fileContent }]
      (.request (Server.sendPacket packet)) := by
  have hlast : Performs
      (downloadFile buffers : DownloadState → Request DownloadState (ε ⊕ Downloaded)) .right
      DownloadState.waitsForAck 2 [(Side.right, ackBytes)]
      [Sum.inr { payloadSize := fileContent.length, content := fileContent }]
      (.payloadAck fileContent.length fileContent) :=
    .send Server.ackBytes_ne_nil rfl (.emit rfl (.done rfl))
  obtain ⟨m, hcontent⟩ := Performs.consumes (consumes_content hlen hpos) ⟨2, hlast⟩
  have hsize : Performs
      (downloadFile buffers : DownloadState → Request DownloadState (ε ⊕ Downloaded)) .right
      DownloadState.waitsForAck (m + 2) ((Side.right.other, uint64Bytes (UInt64.ofNat
        fileContent.length)) :: (.right, ackBytes) ::
          (Lines.by Side.right.other (DropboxSimulator.sendLargePayloadToSocket fileContent) ++
            [(.right, ackBytes)]))
      [Sum.inr { payloadSize := fileContent.length, content := fileContent }] .size := by
    -- the size asks for all its eight bytes
    refine .receive (n := 8) (k := fun bs =>
      .sized (readDataFromSocket buffers.fileSizeBuffer.val bs)) (uint64Bytes_ne_nil _) rfl
      (Or.inl (by simp)) ?_
    rw [sized_of_length hpos hlen]
    exact .send Server.ackBytes_ne_nil rfl hcontent
  have hwait : Performs
      (downloadFile buffers : DownloadState → Request DownloadState (ε ⊕ Downloaded)) .right
      DownloadState.waitsForAck (m + 3) _ _ (.request []) :=
    .receive (n := 8) Server.ackBytes_ne_nil rfl (Or.inr ⟨by decide, Or.inl rfl⟩) hsize
  have hrequest := Performs.writes (k := DownloadState.request) (fun _ _ => rfl)
    (Server.sendPacket packet) ⟨_, hwait⟩
  have hpacket := solid_sendLargePayloadToSocket packet.length_bytes_lt packet.bytes_ne_nil
  rw [solid, ← Server.sendPacket] at hpacket
  rwa [hpacket] at hrequest

end Fetching

/-- A download of a file that the server has comes to its end, and then the client has written just
that file, once. -/
theorem fetches (loopBuffers : Server.Buffers) (buffers : ReceiveBuffers)
    (storage : Server.Storage) (userName : Bytes) (stale : CommandPacket)
    {fileName fileContent : Bytes} (hname : ∀ b ∈ fileName, b ≠ 0) (hshort : fileName.length < 100)
    (hfile : storage.files (completePath userName fileName) = some fileContent)
    (hpos : 0 < fileContent.length) (hlen : fileContent.length < 2 ^ 31) :
    ∃ bound, ∀ sides w,
      runWhile (Duplex.step (Server.serve loopBuffers storage userName) (downloadFile buffers))
        (Unmixed DownloadState.waitsForAck) (download stale fileName) sides = some w →
      sides.length ≤ bound ∧
        w.noted <+: [Sum.inr { payloadSize := fileContent.length, content := fileContent }] ∧
        (w.Stuck (Server.serve loopBuffers storage userName) (downloadFile buffers) →
          w.noted = [Sum.inr { payloadSize := fileContent.length, content := fileContent }]) := by
  rcases stale.additionalInfo.exists_strcpy hshort with ⟨info, hinfo⟩
  have hstr : info.string = fileName := CharArray.string_of_strcpy hname hinfo
  have hask : download stale fileName = Duplex.start (.loop (.command []))
      (.request (Server.sendPacket (Server.fillPacket stale cmdDownload info))) := by
    simp only [download, askForFile, hinfo]
  rw [← hstr] at hfile
  let packet := Server.fillPacket stale cmdDownload info
  obtain ⟨i, hserve⟩ : ∃ i, Performs (Server.serve loopBuffers storage userName) .left
      (fun _ => false) i (Server.downloadLines packet fileContent) [] (.loop (.command [])) :=
    Server.performs_serve rfl hfile hpos hlen
  obtain ⟨j, hclient⟩ : ∃ j, Performs (downloadFile buffers) .right DownloadState.waitsForAck j
      (Server.downloadLines packet fileContent)
      [Sum.inr { payloadSize := fileContent.length, content := fileContent }]
      (.request (Server.sendPacket packet)) :=
    performs_downloadFile hpos hlen
  -- only the client notes anything
  have hseparates : Separates (fun _ => true) ([] : List (Executed ⊕ Downloaded))
      [Sum.inr { payloadSize := fileContent.length, content := fileContent }] :=
    ⟨by simp, by simp⟩
  obtain ⟨bound, hall⟩ := Performs.together hserve hclient hseparates
  refine ⟨bound, fun sides w hrun => ?_⟩
  rw [hask] at hrun
  simpa using hall sides w hrun

/-! ## The files of a user -/

/-- The files in the directory of a user, by their names. -/
def storedFiles (cwd : List Bytes) (user : Bytes) (t : Files) : Directory := fun name =>
  match t.lookup (userLocation cwd user ++ [name]) with
  | some (.file fileContent) => some fileContent
  | _ => none

/-- The directory of the user is there, with nothing but files in it. -/
structure HoldsFiles (cwd : List Bytes) (user : Bytes) (t : Files) : Prop where
  serves : t.Serves (userLocation cwd user)
  noDirectory : ∀ name, t.isDirectory (userLocation cwd user ++ [name]) = false

/-- What the server does to its files when it executes a command. -/
def execute (cwd : List Bytes) (user : Bytes) : Executed → Files → Files
  | .upload fileName payload, t => t.write cwd (pathOf (completePath user fileName)) payload
  | .delete fileName, t => t.remove cwd (pathOf (completePath user fileName))
  | .listServer, t => t
  | .exit, t => t

/-- The file that a command changes, if it changes one, has a plain name. -/
def NamesPlain : Executed → Prop
  | .upload fileName _ => Plain fileName
  | .delete fileName => Plain fileName
  | .listServer => True
  | .exit => True

/-- The files that `downloadFileCommand` finds. -/
def storageOf (cwd : List Bytes) (t : Files) (notDownloadedMessage : CharArray 6) :
    Server.Storage where
  files := fun path =>
    match t.read cwd (pathOf path) with
    | some (.file fileContent) => some fileContent
    | _ => none
  notDownloadedMessage := notDownloadedMessage

section Storing

variable {cwd : List Bytes} {user name : Bytes} {t t' : Files} {e : Executed} {es : List Executed}

theorem pathOf_plain (h : Plain name) : pathOf name = [.name name] := by
  rw [pathOf, List.splitOn_eq_singleton h.noSlash, List.map_singleton, h.isName]

theorem files_storageOf (huser : Plain user) (ht : HoldsFiles cwd user t) (hname : Plain name)
    (notDownloadedMessage : CharArray 6) :
    (storageOf cwd t notDownloadedMessage).files (completePath user name) =
      storedFiles cwd user t name := by
  have hread : t.read cwd (pathOf (completePath user name)) =
      t.lookup (userLocation cwd user ++ [name]) := by
    rw [Server.read_completePath huser ht.serves, pathOf_plain hname]
    rfl
  simp only [storageOf, storedFiles, hread]

/-- A change of one place, which is no directory then, keeps the directory of the user. -/
theorem HoldsFiles.of_lookup (ht : HoldsFiles cwd user t)
    (hserves : t'.Serves (userLocation cwd user))
    (hself : t'.isDirectory (userLocation cwd user ++ [name]) = false)
    (hother : ∀ l, l ≠ userLocation cwd user ++ [name] → t'.lookup l = t.lookup l) :
    HoldsFiles cwd user t' := by
  refine ⟨hserves, fun other => ?_⟩
  by_cases hsame : other = name
  · rw [hsame]
    exact hself
  · have hne : userLocation cwd user ++ [other] ≠ userLocation cwd user ++ [name] := by
      simpa using hsame
    rw [FileTree.isDirectory_congr (hother _ hne)]
    exact ht.noDirectory other

theorem storedFiles_eq_update {content : Option Bytes}
    (hself : storedFiles cwd user t' name = content)
    (hother : ∀ l, l ≠ userLocation cwd user ++ [name] → t'.lookup l = t.lookup l) :
    storedFiles cwd user t' = Function.update (storedFiles cwd user t) name content := by
  funext other
  by_cases hsame : other = name
  · rw [hsame, Function.update_self, hself]
  · have hne : userLocation cwd user ++ [other] ≠ userLocation cwd user ++ [name] := by
      simpa using hsame
    rw [Function.update_of_ne hsame, storedFiles, hother _ hne, storedFiles]

/-- A command changes the tree as it changes the files of the user. -/
theorem storedFiles_execute (huser : Plain user) (ht : HoldsFiles cwd user t) (he : NamesPlain e) :
    HoldsFiles cwd user (execute cwd user e t) ∧
      storedFiles cwd user (execute cwd user e t) =
        changeDirectory e (storedFiles cwd user t) := by
  cases e with
  | upload fileName payload =>
      have hpath := pathOf_plain he
      have hself : (t.write (userLocation cwd user) [.name fileName] payload).lookup
          (userLocation cwd user ++ [fileName]) = some (.file payload) :=
        FileTree.lookup_write_name (ht.noDirectory fileName)
      have hother : ∀ l, l ≠ userLocation cwd user ++ [fileName] →
          (t.write (userLocation cwd user) [.name fileName] payload).lookup l = t.lookup l :=
        fun l hl => FileTree.lookup_write_of_ne hl
      dsimp only [execute, changeDirectory]
      rw [Server.write_completePath huser ht.serves, hpath]
      refine ⟨ht.of_lookup (ht.serves.write (confined_name _ fileName)) ?_ hother,
        storedFiles_eq_update ?_ hother⟩
      · rw [FileTree.isDirectory, hself]
      · rw [storedFiles, hself]
  | delete fileName =>
      have hpath := pathOf_plain he
      have hself := FileTree.lookup_remove_name (ht.noDirectory fileName)
      have hother : ∀ l, l ≠ userLocation cwd user ++ [fileName] →
          (t.remove (userLocation cwd user) [.name fileName]).lookup l = t.lookup l :=
        fun l hl => FileTree.lookup_remove_of_ne hl
      dsimp only [execute, changeDirectory]
      rw [Server.remove_completePath huser ht.serves, hpath]
      refine ⟨ht.of_lookup (ht.serves.remove (confined_name _ fileName)) ?_ hother,
        storedFiles_eq_update ?_ hother⟩
      · rw [FileTree.isDirectory, hself]
      · rw [storedFiles, hself]
  | listServer =>
      exact ⟨ht, rfl⟩
  | exit =>
      exact ⟨ht, rfl⟩

theorem storedFiles_applyAll (huser : Plain user) (ht : HoldsFiles cwd user t)
    (hes : ∀ e ∈ es, NamesPlain e) :
    HoldsFiles cwd user (applyAll (execute cwd user) es t) ∧
      storedFiles cwd user (applyAll (execute cwd user) es t) =
        applyAll changeDirectory es (storedFiles cwd user t) := by
  induction es generalizing t with
  | nil =>
      exact ⟨ht, rfl⟩
  | cons e es ih =>
      rcases storedFiles_execute huser ht (hes e List.mem_cons_self) with ⟨ht', hstored⟩
      rcases ih ht' fun e' he' => hes e' (List.mem_cons_of_mem _ he') with ⟨ht'', hrest⟩
      refine ⟨ht'', hrest.trans ?_⟩
      rw [hstored]
      rfl

end Storing

/-! ## Sessions -/

/-- Sessions of the user, one after another: in each the client issues its commands, every file name
is read alone, and in the end neither side can go on. -/
inductive Served (cwd : List Bytes) (user : Bytes) :
    List (List (CommandPacket × ClientCommand)) → Files → Files → Prop
  | done {t : Files} : Served cwd user [] t t
  | session {buffers : Buffers} {commands : List (CommandPacket × ClientCommand)}
      {sessions : List (List (CommandPacket × ClientCommand))} {sides : List Side} {t t' : Files}
      {w : Duplex (List Action) LoopState Executed}
      (hvalid : ∀ issued ∈ commands, issued.2.Valid)
      (hroom : ∀ issued ∈ commands, issued.2.HasRoom)
      (hrun : runWhile (Duplex.step script (terminalThreadFunction buffers))
        (Unmixed LoopState.readsName) (session commands) sides = some w)
      (hstuck : w.Stuck script (terminalThreadFunction buffers)) :
      Served cwd user sessions (applyAll (execute cwd user) w.noted t) t' →
        Served cwd user (commands :: sessions) t t'

/-- What the server is to execute for the commands of sessions. -/
def executedOf (sessions : List (List (CommandPacket × ClientCommand))) : List Executed :=
  sessions.flatten.map fun issued => issued.2.executed

section Sessions

variable {cwd : List Bytes} {user : Bytes} {t t' : Files}
variable {sessions : List (List (CommandPacket × ClientCommand))}

/-- The tree after sessions is the one in which their commands have been executed in order. -/
theorem Served.eq_applyAll (h : Served cwd user sessions t t') :
    t' = applyAll (execute cwd user) (executedOf sessions) t := by
  induction h with
  | done =>
      rfl
  | @session buffers commands sessions sides t t' w hvalid hroom hrun hstuck _ ih =>
      have hleads : Leads (terminalThreadFunction buffers) LoopState.readsName (.command [])
          (issue commands) (commands.map fun issued => issued.2.executed) :=
        leads_issue hvalid hroom
      rcases hleads.runs with ⟨bound, hruns⟩
      rcases hruns sides w hrun with ⟨-, rest, hnoted, hend⟩
      have hall : commands.map (fun issued => issued.2.executed) = w.noted := by
        rw [hnoted, hend hstuck, List.append_nil]
      rw [ih, executedOf, executedOf, List.flatten_cons, List.map_append, hall, applyAll_append]

end Sessions

/-- After any sessions of a user, while the acknowledgement of the request is read alone, a download
comes to its end, the client writes the file at most once and in the end it has, and what it
writes is what the commands of the sessions have made of the file. -/
theorem downloads_last_upload {cwd : List Bytes} {user : Bytes} (huser : Plain user) {t t' : Files}
    (ht : HoldsFiles cwd user t) {sessions : List (List (CommandPacket × ClientCommand))}
    (hserved : Served cwd user sessions t t') (hplain : ∀ e ∈ executedOf sessions, NamesPlain e)
    {fileName fileContent : Bytes} (hname : Plain fileName) (hbytes : ∀ b ∈ fileName, b ≠ 0)
    (hshort : fileName.length < 100)
    (hlast : applyAll changeDirectory (executedOf sessions) (storedFiles cwd user t) fileName =
      some fileContent)
    (hpos : 0 < fileContent.length) (hlen : fileContent.length < 2 ^ 31)
    (loopBuffers : Buffers) (buffers : ReceiveBuffers) (notDownloadedMessage : CharArray 6)
    (stale : CommandPacket) :
    ∃ bound, ∀ sides w,
      runWhile (Duplex.step
          (Server.serve loopBuffers (storageOf cwd t' notDownloadedMessage) user)
          (downloadFile buffers))
        (Unmixed DownloadState.waitsForAck) (download stale fileName) sides = some w →
      sides.length ≤ bound ∧
        w.noted <+: [Sum.inr { payloadSize := fileContent.length, content := fileContent }] ∧
        (w.Stuck (Server.serve loopBuffers (storageOf cwd t' notDownloadedMessage) user)
            (downloadFile buffers) →
          w.noted = [Sum.inr { payloadSize := fileContent.length, content := fileContent }]) := by
  rcases storedFiles_applyAll huser ht hplain with ⟨ht', hstored⟩
  rw [← hserved.eq_applyAll] at ht' hstored
  refine fetches loopBuffers buffers _ user stale hbytes hshort ?_ hpos hlen
  rw [files_storageOf huser ht' hname, hstored]
  exact hlast

/-- The directory of user `a`, with one file in it. -/
def oneFileTree : Files :=
  FileTree.planted (userLocation [] [97] ++ [[98]]) [9] (userLocation [] [97]).inits

/-- Two uploads of a file `a`, each in a session of its own. -/
def uploadedTwice : List (List (CommandPacket × ClientCommand)) :=
  [[(emptyPacket, .upload [97] [1, 2])], [(emptyPacket, .upload [97] [3, 4])]]

/-- The tree after them. -/
def twiceTree : Files :=
  applyAll (execute [] [97]) (executedOf uploadedTwice) oneFileTree

theorem holdsFiles_oneFileTree : HoldsFiles [] [97] oneFileTree := by
  refine ⟨FileTree.serves_planted fun l hl => hl, fun name => ?_⟩
  rw [oneFileTree, FileTree.isDirectory_planted]
  -- a file in a directory is none of the directories that lead there
  refine decide_eq_false fun hmem => ?_
  have hle := ((List.mem_inits _ _).1 hmem).length_le
  simp at hle

/-- One upload, run to its end. -/
theorem served_upload {fileName fileContent : Bytes}
    {sessions : List (List (CommandPacket × ClientCommand))} {t t' : Files}
    (hvalid : (ClientCommand.upload fileName fileContent).Valid)
    (hroom : (ClientCommand.upload fileName fileContent).HasRoom)
    (hrun : (runWhile (Duplex.step script (terminalThreadFunction clearBuffers))
      (Unmixed LoopState.readsName) (session [(emptyPacket, .upload fileName fileContent)])
      uploadSteps).any (fun w => w.Stuck script (terminalThreadFunction clearBuffers) ∧
        w.noted = [.upload fileName fileContent]) = true)
    (h : Served [] [97] sessions (execute [] [97] (.upload fileName fileContent) t) t') :
    Served [] [97] ([(emptyPacket, .upload fileName fileContent)] :: sessions) t t' := by
  rcases (Option.any_eq_true _ _).1 hrun with ⟨w, hw, hboth⟩
  rcases of_decide_eq_true hboth with ⟨hstuck, hnoted⟩
  refine .session (by simpa using hvalid) (by simpa using hroom) hw hstuck ?_
  rw [hnoted]
  exact h

theorem served_uploadedTwice : Served [] [97] uploadedTwice oneFileTree twiceTree :=
  served_upload (by decide +kernel) (by decide +kernel) (by decide +kernel)
    (served_upload (by decide +kernel) (by decide +kernel) (by decide +kernel) .done)

/-- The request, its acknowledgement, the size and the content, each read when it is there. -/
def fetchSteps : List Side :=
  List.replicate 30 .right ++ List.replicate 31 .left ++
    [.right, .left, .right, .right, .left, .left, .right, .right, .right, .left]

theorem downloads_last_upload_uploadedTwice :
    ∃ w, runWhile (Duplex.step
          (Server.serve clearBuffers (storageOf [] twiceTree ⟨List.replicate 6 0, rfl⟩) [97])
          (downloadFile emptyReceiveBuffers)) (Unmixed DownloadState.waitsForAck)
        (download emptyPacket [97]) fetchSteps = some w ∧
      w.noted = [Sum.inr { payloadSize := 2, content := [3, 4] }] := by
  have hrun : (runWhile (Duplex.step
      (Server.serve clearBuffers (storageOf [] twiceTree ⟨List.replicate 6 0, rfl⟩) [97])
      (downloadFile emptyReceiveBuffers)) (Unmixed DownloadState.waitsForAck)
      (download emptyPacket [97]) fetchSteps).any
      (fun w => w.Stuck
        (Server.serve clearBuffers (storageOf [] twiceTree ⟨List.replicate 6 0, rfl⟩) [97])
        (downloadFile emptyReceiveBuffers)) = true := by
    decide +kernel
  have hplain : Plain [97] := ⟨by decide, by decide⟩
  rcases (Option.any_eq_true _ _).1 hrun with ⟨w, hw, hstuck⟩
  have hlast : applyAll changeDirectory (executedOf uploadedTwice)
      (storedFiles [] [97] oneFileTree) [97] = some [3, 4] := by
    decide +kernel
  obtain ⟨bound, hall⟩ := downloads_last_upload hplain holdsFiles_oneFileTree served_uploadedTwice
    (by simpa [executedOf, uploadedTwice, ClientCommand.executed, NamesPlain] using hplain)
    hplain (by simp) (by decide) hlast (by decide) (by decide) clearBuffers emptyReceiveBuffers
    ⟨List.replicate 6 0, rfl⟩ emptyPacket
  exact ⟨w, hw, (hall _ w hw).2.2 (of_decide_eq_true hstuck)⟩

end Client
end DropboxSimulator
