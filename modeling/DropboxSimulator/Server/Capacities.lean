import DropboxSimulator.Client.FileSize
import DropboxSimulator.Server.FileReplication

/-!
# Capacities — the string copies from the connection of a client to the deletion of its file

A user name goes into a connection record, and behind `./database/` into an array of 50 characters,
on the primary and on its secondary.  A file name goes into a block as long as the file, into
command packets, and as a whole path into the packets for the secondary.  Each of these copies is a
`strcpy` or a `strcat` that fails where its destination is too small.

The user has a second device and the primary has a secondary, so that all the copies are made.
-/

namespace DropboxSimulator
namespace Server

open Library

/-! ## The directory of a user -/

/-- `diretorio[50]` with `DATABASE_DIR` in it. -/
def diretorio : CharArray 50 :=
  ⟨databaseDir ++ List.replicate 40 0, rfl⟩

/-- The path that `createUserDirectory` puts together. -/
def createUserDirectory (user : Bytes) : Option (CharArray 50) :=
  (diretorio.strcat [slash]).bind fun diretorio => diretorio.strcat user

section Directory

variable {user : Bytes}

theorem string_diretorio : diretorio.string = databaseDir := by
  have hdir : ∀ b ∈ databaseDir, b ≠ 0 := by decide +kernel
  exact cString_append_nul hdir

/-- The path with its slash fits. -/
theorem exists_strcat_slash :
    ∃ dir, diretorio.strcat [slash] = some dir ∧ dir.string = databaseDir ++ [slash] := by
  have hslash : ∀ b ∈ [slash], b ≠ 0 := by decide +kernel
  have hfits : diretorio.string.length + [slash].length < 50 := by
    rw [string_diretorio]
    decide
  obtain ⟨dir, hdir⟩ := Option.isSome_iff_exists.1 (CharArray.strcat_isSome_iff.2 hfits)
  have hstring := CharArray.string_of_strcat hslash hdir
  rw [string_diretorio] at hstring
  exact ⟨dir, hdir, hstring⟩

theorem createUserDirectory_isSome_iff :
    (createUserDirectory user).isSome ↔ databaseDir.length + 1 + user.length < 50 := by
  obtain ⟨dir, hdir, hstring⟩ := exists_strcat_slash
  rw [createUserDirectory, hdir, Option.bind_some, CharArray.strcat_isSome_iff, hstring]
  rfl

/-- The array holds the directory of the user. -/
theorem string_of_createUserDirectory {dir : CharArray 50} (huser : ∀ b ∈ user, b ≠ 0)
    (h : createUserDirectory user = some dir) : dir.string = userDirectory user := by
  obtain ⟨dir₁, hdir, hstring⟩ := exists_strcat_slash
  rw [createUserDirectory, hdir, Option.bind_some] at h
  calc dir.string = dir₁.string ++ user := CharArray.string_of_strcat huser h
    _ = databaseDir ++ [slash] ++ user := by rw [hstring]
    _ = userDirectory user := List.append_assoc _ _ _

/-- A mediator that has admitted a client comes to its end just if the path fits. -/
theorem createThread_ended_iff (con : Connection) (socket : Int32) (sh : Shared) :
    (createThread con socket sh).next = .ended ↔ (createUserDirectory con.user).isSome := by
  rw [createUserDirectory_isSome_iff, createThread]
  split <;> simp_all

/-- `"./database"`, the slash and the terminator leave room for 38 bytes. -/
theorem createUserDirectory_isSome_iff_lt :
    (createUserDirectory user).isSome ↔ user.length < 39 := by
  have hdir : databaseDir.length = 10 := rfl
  rw [createUserDirectory_isSome_iff, hdir]
  omega

end Directory

/-! ## The copies of a file command -/

namespace FileCommand

/-- The name of the file, as the command has it. -/
def fileName : FileCommand → Bytes
  | .upload fileName _ => fileName
  | .delete command => command.additionalInfo.string

theorem headerText_message (c : FileCommand) (userName : Bytes) :
    headerText (c.message userName) = completePath userName c.fileName := by
  cases c <;> rfl

/-- The other devices are told if the name fits a packet. -/
theorem exists_notification (c : FileCommand) (stale : CommandPacket)
    (h : c.fileName.length < 100) : ∃ writes, c.notification stale = some writes := by
  cases c with
  | upload fileName payload =>
      rcases stale.additionalInfo.exists_strcpy h with ⟨info, hinfo⟩
      exact ⟨_, Option.map_eq_some_iff.2 ⟨info, hinfo, rfl⟩⟩
  | delete command =>
      exact ⟨_, rfl⟩

end FileCommand

/-! ## A client connects, uploads a file and deletes it -/

namespace Capacities

/-- What the records that are filled held before. -/
structure Stack where
  connection : Connection
  insertUser : CommandPacket
  notification : CommandPacket
  replicatedUpload : CommandPacket
  deleteFile : CommandPacket
  replicatedDelete : CommandPacket

/-- `Box::open` fills a connection record; the primary tells the secondary of it, and both make the
directory of the user. -/
def connect (stack : Stack) (user : Bytes) : Option Connection := do
  let username ← stack.connection.username.strcpy user
  let con := { stack.connection with username := username }
  let _ ← writesOf stack.insertUser (.insertUser con)
  let _ ← createUserDirectory con.user
  -- `insertUserConnectedInPrimary`
  let _ ← createUserDirectory con.user
  return con

/-- The copies of `uploadFileCommand` and of `deleteFileCommand`, for the other device and for the
secondary. -/
def tell (notification replication : CommandPacket) (userName : Bytes) (c : FileCommand) :
    Option (List Bytes × List Bytes) := do
  let notified ← c.notification notification
  let replicated ← writesOf replication (c.message userName)
  return (notified, replicated)

/-- `prepareFilePacket` on the client, then `uploadFileCommand` on the primary. -/
def upload (stack : Stack) (userName fileName fileContent : Bytes) :
    Option (List Bytes × List Bytes) := do
  let packet ← Client.FileSize.prepareFilePacket fileName (toInt fileContent.length) fileContent
  tell stack.notification stack.replicatedUpload userName
    (.upload packet.fileName packet.payload)

/-- `deleteFile` on the client, then `deleteFileCommand` on the primary. -/
def delete (stack : Stack) (userName fileName : Bytes) : Option (List Bytes × List Bytes) := do
  let info ← stack.deleteFile.additionalInfo.strcpy fileName
  tell stack.notification stack.replicatedDelete userName
    (.delete (fillPacket stack.deleteFile cmdDelete info))

/-- A client connects, and a file of its user is uploaded, replicated and deleted: every copy
succeeds. -/
def Fit (stack : Stack) (user fileName fileContent : Bytes) : Prop :=
  ∃ con uploaded deleted, connect stack user = some con ∧
    upload stack con.user fileName fileContent = some uploaded ∧
    delete stack con.user fileName = some deleted

section Copies

variable {stack : Stack} {con : Connection} {user fileName fileContent : Bytes}

/-- Both names are shorter than the arrays that a client keeps them in, and the path of the file
then fits a packet. -/
theorem length_completePath_lt (huser : user.length < 39) (hname : fileName.length < 50) :
    (completePath user fileName).length < 100 := by
  have hdir : databaseDir.length = 10 := rfl
  simp only [completePath, List.length_append, List.length_cons, hdir]
  omega

/-- A user is connected if the path of the directory fits. -/
theorem exists_connect (huser : ∀ b ∈ user, b ≠ 0) (h : user.length < 39) :
    ∃ con, connect stack user = some con := by
  have hfits : user.length < 100 := h.trans (by norm_num)
  rcases stack.connection.username.exists_strcpy hfits with ⟨username, hcopy⟩
  let con : Connection := { stack.connection with username := username }
  have hcon : con.user = user := CharArray.string_of_strcpy huser hcopy
  have htext : insertUserText.length < 100 := by decide
  rcases exists_writesOf stack.insertUser (m := .insertUser con) htext with ⟨writes, hwrites⟩
  rcases Option.isSome_iff_exists.1 (createUserDirectory_isSome_iff_lt.2 h) with ⟨dir, hdir⟩
  rw [← hcon] at hdir
  refine ⟨con, ?_⟩
  simp only [connect, hcopy, Option.bind_eq_bind, Option.bind_some]
  rw [hwrites, Option.bind_some, hdir]
  rfl

/-- The name in the record is the one that was typed, and its directory had room. -/
theorem user_of_connect (huser : ∀ b ∈ user, b ≠ 0) (h : connect stack user = some con) :
    con.user = user ∧ user.length < 39 := by
  rcases Option.bind_eq_some_iff.1 h with ⟨username, hcopy, h⟩
  rcases Option.bind_eq_some_iff.1 h with ⟨_, _, h⟩
  rcases Option.bind_eq_some_iff.1 h with ⟨dir, hdir, h⟩
  rcases Option.bind_eq_some_iff.1 h with ⟨_, _, h⟩
  cases h
  have hcon : Connection.user { stack.connection with username := username } = user :=
    CharArray.string_of_strcpy huser hcopy
  rw [hcon] at hdir
  exact ⟨hcon, createUserDirectory_isSome_iff_lt.1 (Option.isSome_of_mem hdir)⟩

/-- The copies of the primary fit when both names are short. -/
theorem exists_tell (notification replication : CommandPacket) {c : FileCommand}
    (huser : user.length < 39) (hname : c.fileName.length < 50) :
    ∃ told, tell notification replication user c = some told := by
  have hpath : (headerText (c.message user)).length < 100 := by
    rw [c.headerText_message]
    exact length_completePath_lt huser hname
  rcases exists_writesOf replication hpath with ⟨replicated, hreplicated⟩
  rcases c.exists_notification notification (hname.trans (by norm_num)) with ⟨notified, hnotified⟩
  refine ⟨(notified, replicated), ?_⟩
  unfold tell
  rw [hnotified, hreplicated]
  rfl

/-- After the client has made its packet, the primary has room for all the copies. -/
theorem exists_upload (huser : user.length < 39) (hname : fileName.length < 50)
    (h : (fileName.length : Int) < toInt fileContent.length) :
    ∃ uploaded, upload stack user fileName fileContent = some uploaded := by
  rcases Client.FileSize.exists_prepareFilePacket h with ⟨packet, hpacket⟩
  have hcopied := (Client.FileSize.fileName_of_prepareFilePacket hpacket).1
  rw [← hcopied] at hname
  unfold upload
  rw [hpacket]
  exact exists_tell stack.notification stack.replicatedUpload huser
    (c := .upload packet.fileName packet.payload) hname

theorem length_lt_of_upload {uploaded : List Bytes × List Bytes}
    (h : upload stack user fileName fileContent = some uploaded) :
    (fileName.length : Int) < toInt fileContent.length := by
  unfold upload at h
  rcases Option.bind_eq_some_iff.1 h with ⟨packet, hpacket, _⟩
  exact (Client.FileSize.fileName_of_prepareFilePacket hpacket).2

/-- A deletion copies the names into packets only. -/
theorem exists_delete (huser : user.length < 39) (hnul : ∀ b ∈ fileName, b ≠ 0)
    (hname : fileName.length < 50) : ∃ deleted, delete stack user fileName = some deleted := by
  have hfits : fileName.length < 100 := hname.trans (by norm_num)
  rcases stack.deleteFile.additionalInfo.exists_strcpy hfits with ⟨info, hcopy⟩
  have hstring : info.string = fileName := CharArray.string_of_strcpy hnul hcopy
  rw [← hstring] at hname
  unfold delete
  rw [hcopy]
  exact exists_tell stack.notification stack.replicatedDelete huser
    (c := .delete (fillPacket stack.deleteFile cmdDelete info)) hname

/-- No copy fails if and only if the user name has at most 38 bytes and the length of the file, as
an `int`, is greater than that of its name. -/
theorem fit_iff (huser : ∀ b ∈ user, b ≠ 0) (hnul : ∀ b ∈ fileName, b ≠ 0)
    (hname : fileName.length < 50) :
    Fit stack user fileName fileContent ↔
      user.length < 39 ∧ (fileName.length : Int) < toInt fileContent.length := by
  constructor
  · intro hfit
    rcases hfit with ⟨con, uploaded, deleted, hconnect, hupload, _⟩
    exact ⟨(user_of_connect huser hconnect).2, length_lt_of_upload hupload⟩
  · intro h
    rcases exists_connect huser h.1 with ⟨con, hconnect⟩
    have hcon : con.user.length < 39 := by
      rw [(user_of_connect huser hconnect).1]
      exact h.1
    rcases exists_upload hcon hname h.2 with ⟨uploaded, hupload⟩
    rcases exists_delete hcon hnul hname with ⟨deleted, hdelete⟩
    exact ⟨con, uploaded, deleted, hconnect, hupload, hdelete⟩

/-- Records of zeroes. -/
def emptyStack : Stack where
  connection :=
    { packetType := 0, socketType := 0, device := 0, username := emptyPacket.additionalInfo,
      socket := 0, padding := emptyPacket.padding }
  insertUser := emptyPacket
  notification := emptyPacket
  replicatedUpload := emptyPacket
  deleteFile := emptyPacket
  replicatedDelete := emptyPacket

/-- The user `u` and the file `f` of two bytes. -/
theorem fit_iff_two_bytes : Fit emptyStack [117] [102] [1, 2] := by
  have huser : ∀ b ∈ ([117] : Bytes), b ≠ 0 := by decide +kernel
  have hnul : ∀ b ∈ ([102] : Bytes), b ≠ 0 := by decide +kernel
  have hname : ([102] : Bytes).length < 50 := by decide
  exact (fit_iff huser hnul hname).2 (by decide)

/-- The file `f` is empty, and its name is copied into a block without bytes. -/
theorem not_fit_empty_file :
    ¬∀ (stack : Stack) (user fileName fileContent : Bytes), (∀ b ∈ user, b ≠ 0) →
      (∀ b ∈ fileName, b ≠ 0) → user.length ≤ 99 → 1 ≤ fileName.length ∧ fileName.length ≤ 49 →
        Fit stack user fileName fileContent := by
  intro h
  have huser : ∀ b ∈ ([117] : Bytes), b ≠ 0 := by decide +kernel
  have hnul : ∀ b ∈ ([102] : Bytes), b ≠ 0 := by decide +kernel
  have hlengths : 1 ≤ ([102] : Bytes).length ∧ ([102] : Bytes).length ≤ 49 := by decide
  rcases h emptyStack [117] [102] [] huser hnul (by decide) hlengths with
    ⟨con, uploaded, _, _, hupload, _⟩
  exact absurd (length_lt_of_upload hupload) (by decide)

end Copies

end Capacities

end Server
end DropboxSimulator
