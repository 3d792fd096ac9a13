import DropboxSimulator.Library.Scanning
import DropboxSimulator.Box.Instruction

/-!
# Prepare — a line of the console becomes an instruction

`Instruction::prepare` takes the line apart in place with `strtok`, compares the first token with
the names of the commands, and copies the rest into `path` and `filename`.  Neither token is
tested for being there, and none of the copies for fitting.

1. The function, on the buffer that the line stands in.
2. `prepare_eq`: it is the command of the line (`Order.ofLine`) with the accesses of that command.
3. What each kind of line leaves in an object that was reset.
4. The lines for which the function reaches its end and leaves what it should.
-/

namespace DropboxSimulator
namespace Box

open Library

/-! ## The function -/

/-- The values of `command_id`. -/
abbrev CommandId := Int32

namespace CommandId

def upload : CommandId := 2
def download : CommandId := 3
def delete : CommandId := 4
def listServer : CommandId := 5
def listClient : CommandId := 6
def getSyncDir : CommandId := 7
def exit : CommandId := 8
def invalidCommand : CommandId := -1

/-- The values that the program gives to `command_id`. -/
def all : List CommandId :=
  [upload, download, delete, listServer, listClient, getSyncDir, exit, invalidCommand]

/-- The comparisons of `set_command_id`. -/
def ofName (commandName : Bytes) : CommandId :=
  if commandName = Box.upload then upload
  else if commandName = Box.download then download
  else if commandName = Box.delete then delete
  else if commandName = Box.listServer then listServer
  else if commandName = Box.listClient then listClient
  else if commandName = Box.getSyncDir then getSyncDir
  else if commandName = Box.exit then exit
  else invalidCommand

end CommandId

/-- All fields of the object. -/
structure WholeInstruction extends Instruction where
  commandName : CharArray 50
  commandId : CommandId
  deriving DecidableEq

namespace WholeInstruction

def setCommandId (i : WholeInstruction) : WholeInstruction :=
  { i with commandId := .ofName i.commandName.string }

/-- The object after `reset`. -/
def cleared : WholeInstruction where
  commandId := .invalidCommand
  filename := Access.zeroed 50
  commandName := Access.zeroed 50
  path := Access.zeroed 200

/-- `reset` leaves nothing of the object as it was. -/
def reset (_ : WholeInstruction) : WholeInstruction :=
  cleared

/-- The `switch` of `prepare`; `none` where a null pointer is used or a copy does not fit. -/
def switchCommandId (t : Scanner) (i : WholeInstruction) : Option (WholeInstruction × Scanner) :=
  if i.commandId = .upload then do
    let (line, t) := t.strtok none []
    let line ← line
    if (stringAt t.memory line).head? = some slash then
      let pointerToName ← strrchr t.memory line slash
      -- the string is at least as long as what is copied of it
      let path ← Access.strncpy i.path ((stringAt t.memory line).take (pointerToName - line + 1))
      let filename ← i.filename.strcpy (stringAt t.memory (pointerToName + 1))
      return ({ i with path := path, filename := filename }, t)
    else
      return ({ i with commandId := .invalidCommand }, t)
  else if i.commandId = .download ∨ i.commandId = .delete then do
    let (line, t) := t.strtok none []
    let line ← line
    let filename ← i.filename.strcpy (stringAt t.memory line)
    let path ← i.path.strcpy []
    return ({ i with path := path, filename := filename }, t)
  else if i.commandId = .invalidCommand then
    return (i, t)
  else do
    let path ← i.path.strcpy []
    let filename ← i.filename.strcpy []
    return ({ i with path := path, filename := filename }, t)

/-- `prepare(line)`, for a pointer into the memory of `t`. -/
def prepare (t : Scanner) (line : Nat) (i : WholeInstruction) :
    Option (WholeInstruction × Scanner) := do
  let (cmdName, t) := t.strtok (some line) [space]
  let cmdName ← cmdName
  let commandName ← i.commandName.strcpy (stringAt t.memory cmdName)
  switchCommandId t (setCommandId { i with commandName := commandName })

end WholeInstruction

/-! ## Lines in parts -/

/-- A line is made of spaces, or it has a first token behind spaces, with or without more of the
line behind one further space. -/
inductive Parts : Bytes → Prop
  | blank {lead : Bytes} (hlead : ∀ b ∈ lead, b = space) : Parts lead
  | word {lead token : Bytes} (hlead : ∀ b ∈ lead, b = space) (htoken : ∀ b ∈ token, b ≠ space)
      (hne : token ≠ []) : Parts (lead ++ token)
  | words {lead token rest : Bytes} (hlead : ∀ b ∈ lead, b = space)
      (htoken : ∀ b ∈ token, b ≠ space) (hne : token ≠ []) :
      Parts (lead ++ (token ++ space :: rest))

section Parts

variable {lead token rest : Bytes}

theorem parts (line : Bytes) : Parts line := by
  obtain ⟨lead, tail, rfl, hlead, htail⟩ : ∃ lead tail, line = lead ++ tail ∧
      (∀ b ∈ lead, b = space) ∧ tail.dropWhile (· = space) = tail := by
    refine ⟨line.takeWhile (· = space), line.dropWhile (· = space), ?_, ?_, ?_⟩
    · rw [List.takeWhile_append_dropWhile]
    · intro b hb
      simpa using List.mem_takeWhile_imp hb
    · exact List.dropWhile_idempotent _ _
  obtain ⟨token, more, rfl, htoken, hmore⟩ : ∃ token more, tail = token ++ more ∧
      (∀ b ∈ token, b ≠ space) ∧ ∀ b ∈ more.head?, b = space := by
    refine ⟨tail.takeWhile (· ≠ space), tail.dropWhile (· ≠ space), ?_, ?_, ?_⟩
    · rw [List.takeWhile_append_dropWhile]
    · intro b hb
      simpa using List.mem_takeWhile_imp hb
    · intro b hb
      have hnot := List.head?_dropWhile_not (· ≠ space) tail
      rw [Option.mem_def.1 hb] at hnot
      simpa using hnot
  by_cases hne : token = []
  · -- what stands behind the spaces does not start with one, so nothing does
    subst hne
    cases more with
    | nil =>
        simpa using Parts.blank hlead
    | cons b more =>
        have hb : b = space := hmore b rfl
        rw [List.nil_append, List.dropWhile_cons_of_pos (by simpa using hb)] at htail
        have hshort := congrArg List.length htail
        have hle := (List.dropWhile_suffix (l := more) (· = space)).length_le
        simp only [List.length_cons] at hshort
        omega
  · cases more with
    | nil =>
        simpa using Parts.word hlead htoken hne
    | cons b more =>
        have hb : b = space := hmore b rfl
        subst hb
        exact Parts.words hlead htoken hne

theorem dropWhile_lead (hlead : ∀ b ∈ lead, b = space) :
    (lead ++ rest).dropWhile (· = space) = rest.dropWhile (· = space) :=
  List.dropWhile_append_of_pos (by simpa using hlead)

theorem dropWhile_token (htoken : ∀ b ∈ token, b ≠ space) (hne : token ≠ []) :
    (token ++ rest).dropWhile (· = space) = token ++ rest := by
  cases token with
  | nil =>
      exact absurd rfl hne
  | cons b token =>
      exact List.dropWhile_cons_of_neg (by simpa using htoken b (by simp))

theorem strtok_blank (hlead : ∀ b ∈ lead, b = space) : strtok lead = none := by
  have hnil : lead.dropWhile (· = space) = [] :=
    List.dropWhile_eq_nil_iff.2 (by simpa using hlead)
  simp only [strtok, hnil]

theorem strtok_word (hlead : ∀ b ∈ lead, b = space) (htoken : ∀ b ∈ token, b ≠ space)
    (hne : token ≠ []) : strtok (lead ++ token) = some (token, none) := by
  have hstart : (token ++ []).dropWhile (· = space) = token ++ [] := dropWhile_token htoken hne
  have htail : (lead ++ token).dropWhile (· = space) = token := by
    simpa using (dropWhile_lead hlead).trans hstart
  have hall : token.takeWhile (· ≠ space) = token :=
    List.takeWhile_eq_self_iff.2 (by simpa using htoken)
  unfold strtok
  rw [htail]
  cases token with
  | nil =>
      exact absurd rfl hne
  | cons b token =>
      have hdrop : (b :: token).drop ((b :: token).length + 1) = [] :=
        List.drop_eq_nil_of_le (by omega)
      simp only [hall, hdrop]

theorem strtok_words (hlead : ∀ b ∈ lead, b = space) (htoken : ∀ b ∈ token, b ≠ space)
    (hne : token ≠ []) : strtok (lead ++ (token ++ space :: rest)) =
      some (token, if rest = [] then none else some rest) := by
  have htail : (lead ++ (token ++ space :: rest)).dropWhile (· = space) =
      token ++ space :: rest :=
    (dropWhile_lead hlead).trans (dropWhile_token htoken hne)
  have hall : (token ++ space :: rest).takeWhile (· ≠ space) = token := by
    rw [List.takeWhile_append_of_pos (by simpa using htoken)]
    simp
  have hdrop : (token ++ space :: rest).drop (token.length + 1) = rest := by
    rw [← List.drop_drop, List.drop_left]
    simp
  unfold strtok
  rw [htail]
  cases token with
  | nil =>
      exact absurd rfl hne
  | cons b token =>
      simp only [List.cons_append] at hall hdrop ⊢
      rw [hall, hdrop]
      cases rest <;> simp

end Parts

/-! ## What the function does -/

/-- The value of `command_id` for a command. -/
def Order.id : Order → CommandId
  | .upload _ => .upload
  | .download _ => .download
  | .delete _ => .delete
  | .listServer => .listServer
  | .listClient => .listClient
  | .getSyncDir => .getSyncDir
  | .exit => .exit
  | .invalidCommand => .invalidCommand

/-- The command for the name and the argument of a line; `none` where the argument is missing. -/
def Order.ofTokens (id : CommandId) (argument : Option Bytes) : Option Order :=
  if id = .upload then
    argument.map fun line => if line.head? = some slash then .upload line else .invalidCommand
  else if id = .download then
    argument.map .download
  else if id = .delete then
    argument.map .delete
  else if id = .listServer then
    some .listServer
  else if id = .listClient then
    some .listClient
  else if id = .getSyncDir then
    some .getSyncDir
  else if id = .exit then
    some .exit
  else
    some .invalidCommand

/-- The object after the accesses of a function. -/
def Instruction.after (i : Instruction) (as : List Access) : Option Instruction :=
  as.foldlM (fun j a => a.write j) i

/-- The object after `prepare` has taken a command from the line. -/
def WholeInstruction.take (i : WholeInstruction) (order : Order) : Option WholeInstruction :=
  (i.toInstruction.after order.prepare).map fun j =>
    { j with commandName := i.commandName, commandId := order.id }

/-- The first token of a line. -/
def firstToken (line : Bytes) : Bytes :=
  (line.dropWhile (· = space)).takeWhile (· ≠ space)

section Steps

open WholeInstruction

variable {lead token rest behind front line : Bytes} {argument : Option Bytes} {saved : Nat}
  {i j : WholeInstruction} {t : Scanner}

/-- The values that `set_command_id` gives. -/
theorem ofName_mem_all (token : Bytes) : CommandId.ofName token ∈ CommandId.all := by
  unfold CommandId.ofName
  repeat' split
  all_goals decide

theorem ofLine_eq (h : strtok line = some (token, argument)) :
    Order.ofLine line =
      if 50 ≤ token.length then none else Order.ofTokens (.ofName token) argument := by
  -- the choice by name is the choice by the number that the name is given
  simp only [Order.ofLine, h, CommandId.ofName, apply_ite fun id => Order.ofTokens id argument]
  rfl

/-! ### The last slash -/

theorem folder_append_name (file : Bytes) : Order.folder file ++ Order.name file = file :=
  List.rdropWhile_append_rtakeWhile

theorem folder_ne_nil (h : slash ∈ line) : Order.folder line ≠ [] := by
  intro hnil
  have hall := List.rdropWhile_eq_nil_iff.1 hnil slash h
  simp at hall

/-- The file name that `prepare` copies stands behind the last slash, and what it copies to `path`
ends with that slash. -/
theorem strrchr_slash {memory : Bytes} {p : Nat} (hline : Shared.NulFree line)
    (hmemory : memory.drop p = line ++ 0 :: behind) (hslash : slash ∈ line) :
    strrchr memory p slash = some (p + (Order.folder line).length - 1) ∧
      stringAt memory (p + (Order.folder line).length - 1 + 1) = Order.name line := by
  have hstring : stringAt memory p = line := by
    rw [stringAt, hmemory, cString_append_nul hline]
  have hpos := List.length_pos_iff.2 (folder_ne_nil hslash)
  refine ⟨by rw [strrchr, hstring, if_pos hslash, Order.folder], ?_⟩
  have hname : Shared.NulFree (Order.name line) := by
    intro b hb
    exact hline b ((List.rtakeWhile_suffix _ _).subset hb)
  have hnext : p + (Order.folder line).length - 1 + 1 = p + (Order.folder line).length := by
    omega
  have hdrop : (line ++ 0 :: behind).drop (Order.folder line).length =
      Order.name line ++ 0 :: behind := by
    calc
      (line ++ 0 :: behind).drop (Order.folder line).length
          = (Order.folder line ++ Order.name line ++ 0 :: behind).drop
              (Order.folder line).length := by rw [folder_append_name]
      _ = Order.name line ++ 0 :: behind := by simp
  calc
    stringAt memory (p + (Order.folder line).length - 1 + 1)
        = cString ((line ++ 0 :: behind).drop (Order.folder line).length) := by
          rw [hnext, stringAt, ← List.drop_drop, hmemory]
    _ = cString (Order.name line ++ 0 :: behind) := by rw [hdrop]
    _ = Order.name line := cString_append_nul hname

/-! ### The `switch` -/

/-- Two accesses, one after the other. -/
theorem after_pair (a b : Access) (i : Instruction) :
    i.after [a, b] = (a.write i).bind fun j => b.write j := by
  simp [Instruction.after]

theorem take_upload (file : Bytes) : i.take (.upload file) =
    (Access.strncpy i.path (Order.folder file)).bind fun path =>
      (i.filename.strcpy (Order.name file)).map fun filename =>
        { i with path := path, filename := filename, commandId := .upload } := by
  rw [take, Order.prepare, after_pair]
  cases hpath : Access.strncpy i.path (Order.folder file) <;>
    simp [Access.write, Order.id, hpath, Function.comp_def]

theorem take_named {order : Order} {name : Bytes}
    (horder : order.prepare = [.strcpyFilename name, .strcpyPath []]) : i.take order =
    (i.filename.strcpy name).bind fun filename =>
      (i.path.strcpy []).map fun path =>
        { i with path := path, filename := filename, commandId := order.id } := by
  rw [take, horder, after_pair]
  cases hname : i.filename.strcpy name <;> simp [Access.write, hname, Function.comp_def]

theorem take_plain {order : Order}
    (horder : order.prepare = [.strcpyPath [], .strcpyFilename []]) : i.take order =
    (i.path.strcpy []).bind fun path =>
      (i.filename.strcpy []).map fun filename =>
        { i with path := path, filename := filename, commandId := order.id } := by
  rw [take, horder, after_pair]
  cases hpath : i.path.strcpy [] <;> simp [Access.write, hpath, Function.comp_def]

theorem take_invalidCommand :
    i.take .invalidCommand = some { i with commandId := .invalidCommand } := by
  simp [take, Instruction.after, Order.prepare, Order.id]

/-- The commands that need no argument clear the name of the file. -/
theorem switch_plain {order : Order} (hid : i.commandId = order.id)
    (horder : order.prepare = [.strcpyPath [], .strcpyFilename []]) :
    (i.switchCommandId t).map Prod.fst = i.take order := by
  rw [take_plain horder, ← hid]
  cases order with
  | upload _ | download _ | delete _ | invalidCommand =>
      cases horder
  | listServer | listClient | getSyncDir | exit =>
      have hother : i.commandId ≠ .upload ∧ i.commandId ≠ .download ∧ i.commandId ≠ .delete ∧
          i.commandId ≠ .invalidCommand := by
        rw [hid]
        decide
      cases hpath : i.path.strcpy [] <;> cases hname : i.filename.strcpy [] <;>
        simp [switchCommandId, hother, hpath, hname]

theorem switch_invalidCommand (hid : i.commandId = .invalidCommand) :
    (i.switchCommandId t).map Prod.fst = i.take .invalidCommand := by
  have hother : CommandId.invalidCommand ≠ .upload ∧ CommandId.invalidCommand ≠ .download ∧
      CommandId.invalidCommand ≠ .delete := by decide
  have hsame : { i with commandId := .invalidCommand } = i := by rw [← hid]
  rw [take_invalidCommand, hsame]
  simp [switchCommandId, hid, hother]

section Argument

variable {p : Nat} {t' : Scanner}

/-- The file of an upload is split behind its last slash. -/
theorem switch_upload (ht : t.strtok none [] = (some p, t'))
    (hmemory : t'.memory.drop p = rest ++ 0 :: behind) (hrest : Shared.NulFree rest)
    (hid : i.commandId = .upload) :
    (i.switchCommandId t).map Prod.fst =
      i.take (if rest.head? = some slash then .upload rest else .invalidCommand) := by
  have hstring : stringAt t'.memory p = rest := by
    rw [stringAt, hmemory, cString_append_nul hrest]
  by_cases hslash : rest.head? = some slash
  · have hmem : slash ∈ rest := List.mem_of_head? hslash
    obtain ⟨hlast, hname⟩ := strrchr_slash hrest hmemory hmem
    have hcopied : p + (Order.folder rest).length - 1 - p + 1 = (Order.folder rest).length := by
      have hpos := List.length_pos_iff.2 (folder_ne_nil hmem)
      omega
    have hfolder : rest.take (Order.folder rest).length = Order.folder rest := by
      calc
        rest.take (Order.folder rest).length
            = (Order.folder rest ++ Order.name rest).take (Order.folder rest).length := by
              rw [folder_append_name]
        _ = Order.folder rest := List.take_left
    rw [if_pos hslash, take_upload, switchCommandId, if_pos hid, ht]
    simp only [Option.bind_eq_bind, Option.bind_some, hstring, if_pos hslash, hlast, hcopied,
      hfolder, hname]
    cases hpath : Access.strncpy i.path (Order.folder rest) with
    | none =>
        rfl
    | some path =>
        cases hfile : i.filename.strcpy (Order.name rest) with
        | none =>
            rfl
        | some filename =>
            simp [hid]
  · rw [if_neg hslash, take_invalidCommand]
    simp [switchCommandId, hid, ht, hstring, hslash]

/-- The name of a download or of a deletion is all that is left of the line. -/
theorem switch_named {order : Order} (ht : t.strtok none [] = (some p, t'))
    (hmemory : t'.memory.drop p = rest ++ 0 :: behind) (hrest : Shared.NulFree rest)
    (hid : i.commandId = order.id)
    (horder : order.prepare = [.strcpyFilename rest, .strcpyPath []]) :
    (i.switchCommandId t).map Prod.fst = i.take order := by
  have hstring : stringAt t'.memory p = rest := by
    rw [stringAt, hmemory, cString_append_nul hrest]
  rw [take_named horder, ← hid]
  cases order with
  | upload _ | listServer | listClient | getSyncDir | exit | invalidCommand =>
      cases horder
  | download _ | delete _ =>
      have hother : i.commandId ≠ .upload ∧ (i.commandId = .download ∨ i.commandId = .delete) := by
        rw [hid]
        simp only [Order.id]
        decide
      cases hname : i.filename.strcpy rest <;> cases hpath : i.path.strcpy [] <;>
        simp [switchCommandId, hother, ht, hstring, hname, hpath]

end Argument

/-- The commands without an argument, whatever `strtok` would give next. -/
theorem switch_other (hid : i.commandId ∈ CommandId.all)
    (hneeds : i.commandId ∉ [CommandId.upload, .download, .delete]) :
    (i.switchCommandId t).map Prod.fst = (Order.ofTokens i.commandId argument).bind i.take := by
  simp only [CommandId.all, List.mem_cons, List.not_mem_nil, or_false, not_or] at hid hneeds
  rcases hid with hid | hid | hid | hid | hid | hid | hid | hid
  · exact absurd hid hneeds.1
  · exact absurd hid hneeds.2.1
  · exact absurd hid hneeds.2.2
  · have hplain : i.commandId = Order.listServer.id := hid
    rw [switch_plain hplain rfl, hid]
    rfl
  · have hplain : i.commandId = Order.listClient.id := hid
    rw [switch_plain hplain rfl, hid]
    rfl
  · have hplain : i.commandId = Order.getSyncDir.id := hid
    rw [switch_plain hplain rfl, hid]
    rfl
  · have hplain : i.commandId = Order.exit.id := hid
    rw [switch_plain hplain rfl, hid]
    rfl
  · rw [switch_invalidCommand hid, hid]
    rfl

/-- The `switch`, for a line without a second token: the commands that need one use a null
pointer. -/
theorem switch_none {t' : Scanner} (ht : t.strtok none [] = (none, t'))
    (hid : i.commandId ∈ CommandId.all) :
    (i.switchCommandId t).map Prod.fst = (Order.ofTokens i.commandId none).bind i.take := by
  by_cases hneeds : i.commandId ∈ [CommandId.upload, .download, .delete]
  · simp only [List.mem_cons, List.not_mem_nil, or_false] at hneeds
    have hdownload : CommandId.download ≠ .upload := by decide
    have hdelete : CommandId.delete ≠ .upload ∧ CommandId.delete ≠ .download := by decide
    rcases hneeds with hid | hid | hid <;>
      simp [switchCommandId, Order.ofTokens, hid, ht, hdownload, hdelete]
  · exact switch_other hid hneeds

/-- The `switch`, for a line with a second token. -/
theorem switch_some {p : Nat} {t' : Scanner} (ht : t.strtok none [] = (some p, t'))
    (hmemory : t'.memory.drop p = rest ++ 0 :: behind) (hrest : Shared.NulFree rest)
    (hid : i.commandId ∈ CommandId.all) :
    (i.switchCommandId t).map Prod.fst =
      (Order.ofTokens i.commandId (some rest)).bind i.take := by
  by_cases hneeds : i.commandId ∈ [CommandId.upload, .download, .delete]
  · simp only [List.mem_cons, List.not_mem_nil, or_false] at hneeds
    rcases hneeds with hid | hid | hid
    · rw [switch_upload ht hmemory hrest hid, hid]
      rfl
    · have hnamed : i.commandId = (Order.download rest).id := hid
      rw [switch_named ht hmemory hrest hnamed rfl, hid]
      rfl
    · have hnamed : i.commandId = (Order.delete rest).id := hid
      rw [switch_named ht hmemory hrest hnamed rfl, hid]
      rfl
  · exact switch_other hid hneeds

/-- The buffer of a line: what stands before it, the line, its terminator and what is behind. -/
def buffer (front line behind : Bytes) (saved : Nat) : Scanner :=
  ⟨front ++ (line ++ 0 :: behind), saved⟩

theorem mem_delim_of_space (hlead : ∀ b ∈ lead, b = space) :
    ∀ b ∈ lead, b ∈ [space] ∧ b ≠ 0 := by
  intro b hb
  rw [hlead b hb]
  decide

theorem notMem_delim_of_token (htoken : ∀ b ∈ token, b ≠ space) (hfree : Shared.NulFree token) :
    ∀ b ∈ token, b ∉ [space] ∧ b ≠ 0 := by
  intro b hb
  simpa using ⟨htoken b hb, hfree b hb⟩

/-- No token is found in a line of spaces. -/
theorem prepare_blank (hlead : ∀ b ∈ lead, b = space) :
    i.prepare (buffer front lead behind saved) front.length = none := by
  have hnone : (buffer front lead behind saved).strtok (some front.length) [space] = (none, _) :=
    Scanner.strtok_none rfl (mem_delim_of_space hlead) rfl
  simp [prepare, hnone]

/-- The name of the command is copied before anything is done with it. -/
theorem prepare_of_strtok {p : Nat} {t' : Scanner} {q : Nat}
    (ht : t.strtok (some p) [space] = (some q, t')) (htoken : stringAt t'.memory q = token) :
    (i.prepare t p).map Prod.fst = (i.commandName.strcpy token).bind fun copy =>
      ((setCommandId { i with commandName := copy }).switchCommandId t').map Prod.fst := by
  cases hcopy : i.commandName.strcpy token <;> simp [prepare, ht, htoken, hcopy]

theorem commandId_setCommandId {copy : CharArray 50} (hfree : Shared.NulFree token)
    (hcopy : i.commandName.strcpy token = some copy) :
    (setCommandId { i with commandName := copy }).commandId = .ofName token := by
  rw [setCommandId, CharArray.string_of_strcpy hfree hcopy]

/-- What the `switch` does behind the first token is what `prepare` does. -/
theorem prepare_of_switch {p q : Nat} {t' : Scanner} (hfree : Shared.NulFree token)
    (hfirst : t.strtok (some p) [space] = (some q, t')) (htoken : stringAt t'.memory q = token)
    (hswitch : ∀ j : WholeInstruction, j.commandId ∈ CommandId.all →
      (j.switchCommandId t').map Prod.fst = (Order.ofTokens j.commandId argument).bind j.take) :
    (i.prepare t p).map Prod.fst = (i.commandName.strcpy token).bind fun copy =>
      (Order.ofTokens (.ofName token) argument).bind { i with commandName := copy }.take := by
  rw [prepare_of_strtok hfirst htoken]
  cases hcopy : i.commandName.strcpy token with
  | none =>
      rfl
  | some copy =>
      have hid := commandId_setCommandId hfree hcopy
      have hall : (setCommandId { i with commandName := copy }).commandId ∈ CommandId.all := by
        rw [hid]
        exact ofName_mem_all token
      rw [Option.bind_some, hswitch _ hall, hid]
      rfl

/-- A line that ends with its first token. -/
theorem prepare_word (hlead : ∀ b ∈ lead, b = space) (htoken : ∀ b ∈ token, b ≠ space)
    (hne : token ≠ []) (hfree : Shared.NulFree token) :
    (i.prepare (buffer front (lead ++ token) behind saved) front.length).map Prod.fst =
      (i.commandName.strcpy token).bind fun copy =>
        (Order.ofTokens (.ofName token) none).bind { i with commandName := copy }.take := by
  have hbuffer : buffer front (lead ++ token) behind saved =
      ⟨front ++ (lead ++ (token ++ 0 :: behind)), saved⟩ := by
    simp [buffer]
  have hfirst : Scanner.strtok ⟨front ++ (lead ++ (token ++ 0 :: behind)), saved⟩
      (some front.length) [space] = (some (front.length + lead.length),
        ⟨front ++ (lead ++ (token ++ 0 :: behind)), front.length + lead.length + token.length⟩) :=
    Scanner.strtok_last rfl (mem_delim_of_space hlead) (notMem_delim_of_token htoken hfree) hne rfl
  have hname : stringAt (front ++ (lead ++ (token ++ 0 :: behind)))
      (front.length + lead.length) = token := by
    rw [Scanner.stringAt_append_append, cString_append_nul hfree]
  -- the second call starts at the terminator of the line
  have hsecond : (Scanner.strtok ⟨front ++ lead ++ token ++ ([] ++ 0 :: behind),
      front.length + lead.length + token.length⟩ none []) = (none, _) :=
    Scanner.strtok_none (by simp [Nat.add_assoc]) (by simp) rfl
  simp only [List.append_assoc, List.nil_append] at hsecond
  rw [hbuffer]
  exact prepare_of_switch hfree hfirst hname fun j hj => switch_none hsecond hj

/-- A line that goes on behind its first token. -/
theorem prepare_words (hlead : ∀ b ∈ lead, b = space) (htoken : ∀ b ∈ token, b ≠ space)
    (hne : token ≠ []) (hfree : Shared.NulFree token) (hrest : Shared.NulFree rest) :
    (i.prepare (buffer front (lead ++ (token ++ space :: rest)) behind saved) front.length).map
        Prod.fst =
      (i.commandName.strcpy token).bind fun copy =>
        (Order.ofTokens (.ofName token) (if rest = [] then none else some rest)).bind
          { i with commandName := copy }.take := by
  have hbuffer : buffer front (lead ++ (token ++ space :: rest)) behind saved =
      ⟨front ++ (lead ++ (token ++ space :: (rest ++ 0 :: behind))), saved⟩ := by
    simp [buffer]
  have hfirst : Scanner.strtok ⟨front ++ (lead ++ (token ++ space :: (rest ++ 0 :: behind))), saved⟩
      (some front.length) [space] = (some (front.length + lead.length),
        ⟨front ++ (lead ++ (token ++ 0 :: (rest ++ 0 :: behind))),
          front.length + lead.length + token.length + 1⟩) :=
    Scanner.strtok_token rfl (mem_delim_of_space hlead) (notMem_delim_of_token htoken hfree) hne
      (by decide)
  have hname : stringAt (front ++ (lead ++ (token ++ 0 :: (rest ++ 0 :: behind))))
      (front.length + lead.length) = token := by
    rw [Scanner.stringAt_append_append, cString_append_nul hfree]
  rw [hbuffer]
  refine prepare_of_switch hfree hfirst hname fun j hj => ?_
  by_cases hnil : rest = []
  · -- the second call starts at the terminator of the line
    subst hnil
    have hsecond : (Scanner.strtok ⟨front ++ lead ++ token ++ [0] ++ ([] ++ 0 :: behind),
        front.length + lead.length + token.length + 1⟩ none []) = (none, _) :=
      Scanner.strtok_none (by simp [Nat.add_assoc]) (by simp) rfl
    simp only [List.append_assoc, List.nil_append, List.cons_append] at hsecond
    rw [if_pos rfl]
    exact switch_none hsecond hj
  · -- the second call starts behind the NUL that the first one wrote
    have hsecond : Scanner.strtok
        ⟨front ++ lead ++ token ++ [0] ++ ([] ++ (rest ++ 0 :: behind)),
          front.length + lead.length + token.length + 1⟩ none [] =
        (some ((front ++ lead ++ token ++ [0]).length + 0), _) :=
      Scanner.strtok_last (by simp [Nat.add_assoc]) (by simp)
        (fun b hb => ⟨by simp, hrest b hb⟩) hnil rfl
    have hmemory : (front ++ lead ++ token ++ [0] ++ ([] ++ (rest ++ 0 :: behind))).drop
        ((front ++ lead ++ token ++ [0]).length + 0) = rest ++ 0 :: behind := by
      rw [Nat.add_zero, List.drop_left, List.nil_append]
    have hswitch := switch_some hsecond hmemory hrest hj
    simp only [List.append_assoc, List.nil_append, List.cons_append] at hswitch
    rw [if_neg hnil]
    exact hswitch

theorem firstToken_of_strtok (h : strtok line = some (token, argument)) :
    firstToken line = token := by
  unfold strtok at h
  split at h
  · cases h
  · simp only at h
    split at h <;>
      · cases h
        rfl

/-- The copy of the first token fails where `Order.ofLine` says that it does. -/
theorem copy_bind_ofLine (h : strtok line = some (token, argument)) :
    ((i.commandName.strcpy token).bind fun copy =>
        (Order.ofTokens (.ofName token) argument).bind { i with commandName := copy }.take) =
      (i.commandName.strcpy (firstToken line)).bind fun copy =>
        (Order.ofLine line).bind { i with commandName := copy }.take := by
  rw [firstToken_of_strtok h, ofLine_eq h]
  by_cases hlong : 50 ≤ token.length
  · have hcopy : i.commandName.strcpy token = none := by
      simp [CharArray.strcpy, hlong]
    rw [hcopy]
    rfl
  · rw [if_neg hlong]

/-- `prepare` makes the accesses of the command in the line, if the first token fits. -/
theorem prepare_eq (hline : Shared.NulFree line) :
    (i.prepare (buffer front line behind saved) front.length).map Prod.fst =
      (i.commandName.strcpy (firstToken line)).bind fun copy =>
        (Order.ofLine line).bind { i with commandName := copy }.take := by
  cases parts line with
  | blank hlead =>
      have hnone : Order.ofLine line = none := by
        rw [Order.ofLine, strtok_blank hlead]
      rw [prepare_blank hlead, hnone]
      cases i.commandName.strcpy (firstToken line) <;> rfl
  | word hlead htoken hne =>
      have hfree : Shared.NulFree _ := fun b hb => hline b (List.mem_append_right _ hb)
      rw [prepare_word hlead htoken hne hfree, copy_bind_ofLine (strtok_word hlead htoken hne)]
  | words hlead htoken hne =>
      rename_i lead token rest
      have hfree : Shared.NulFree token := fun b hb => hline b (by simp [hb])
      have hrest : Shared.NulFree rest := fun b hb => hline b (by simp [hb])
      rw [prepare_words hlead htoken hne hfree hrest,
        copy_bind_ofLine (strtok_words hlead htoken hne)]

end Steps

/-! ## What a line leaves in an object that was reset -/

/-- The strings that a command leaves in `path` and `filename` of an object that was reset. -/
def Order.leaves : Order → Bytes × Bytes
  | .upload file => (folder file, name file)
  | .download name | .delete name => ([], name)
  | _ => ([], [])

/-- The copies of a command fit. -/
def Order.Fits : Order → Prop
  | .upload file => (folder file).length ≤ 200 ∧ (name file).length < 50
  | .download name | .delete name => name.length < 50
  | _ => True

/-- `prepare` of a line, in an object that was reset; where the line stands does not matter. -/
def prepared (line : Bytes) : Option WholeInstruction :=
  (WholeInstruction.cleared.commandName.strcpy (firstToken line)).bind fun copy =>
    (Order.ofLine line).bind { WholeInstruction.cleared with commandName := copy }.take

section Readings

open WholeInstruction

variable {line front behind : Bytes} {saved : Nat} {i j : WholeInstruction} {order : Order}

/-- After `reset` the line alone decides. -/
theorem prepare_reset (hline : Shared.NulFree line) :
    (i.reset.prepare (buffer front line behind saved) front.length).map Prod.fst = prepared line :=
  prepare_eq hline

theorem strncpy_isSome_iff {n : Nat} {dst : CharArray n} {src : Bytes} :
    (Access.strncpy dst src).isSome ↔ src.length ≤ n := by
  unfold Access.strncpy
  split <;> simp_all

/-- Two copies, one after the other. -/
theorem isSome_bind_map {α β γ : Type} {a : Option α} {b : Option β} {f : α → β → γ} :
    (a.bind fun x => b.map (f x)).isSome ↔ a.isSome ∧ b.isSome := by
  cases a <;> cases b <;> simp

/-- A command is taken over exactly if its copies fit. -/
theorem take_isSome_iff : (i.take order).isSome ↔ order.Fits := by
  have hpath : (i.path.strcpy []).isSome ↔ 0 < 200 := CharArray.strcpy_isSome_iff
  cases order with
  | upload file =>
      have hfolder : (Access.strncpy i.path (Order.folder file)).isSome ↔ _ := strncpy_isSome_iff
      have hname : (i.filename.strcpy (Order.name file)).isSome ↔ _ := CharArray.strcpy_isSome_iff
      rw [take_upload, isSome_bind_map, hfolder, hname, Order.Fits]
  | download name | delete name =>
      have hname : (i.filename.strcpy name).isSome ↔ _ := CharArray.strcpy_isSome_iff
      rw [take_named rfl, isSome_bind_map, hname, hpath]
      simp [Order.Fits]
  | listServer | listClient | getSyncDir | exit =>
      have hname : (i.filename.strcpy []).isSome ↔ 0 < 50 := CharArray.strcpy_isSome_iff
      rw [take_plain rfl, isSome_bind_map, hname, hpath]
      simp [Order.Fits]
  | invalidCommand =>
      simp [take_invalidCommand, Order.Fits]

theorem exists_of_bind_map {α β γ : Type} {a : Option α} {b : Option β} {f : α → β → γ} {c : γ}
    (h : (a.bind fun x => b.map (f x)) = some c) : ∃ x y, a = some x ∧ b = some y ∧ f x y = c := by
  cases a <;> cases b <;> simp_all

theorem string_zeroed {n : Nat} : (Access.zeroed n).string = [] :=
  cString_replicate_zero

/-- What a command leaves in an object whose arrays are all zeroes. -/
theorem leaves_of_take (hi : i.toInstruction = ⟨Access.zeroed 200, Access.zeroed 50⟩)
    (horder : order.NulFree) (h : i.take order = some j) :
    j.commandId = order.id ∧ (j.path.string, j.filename.string) = order.leaves := by
  have hzero : i.path = Access.zeroed 200 ∧ i.filename = Access.zeroed 50 := by
    rw [hi]
    exact ⟨rfl, rfl⟩
  have hnil : ∀ b ∈ ([] : Bytes), b ≠ 0 := by simp
  cases order with
  | upload file =>
      rw [take_upload, hzero.1] at h
      rcases exists_of_bind_map h with ⟨path, filename, hpath, hfilename, rfl⟩
      have hfolder : ∀ b ∈ Order.folder file, b ≠ 0 := by
        intro b hb
        exact horder b ((List.rdropWhile_prefix _ _).subset hb)
      have hname : ∀ b ∈ Order.name file, b ≠ 0 := by
        intro b hb
        exact horder b ((List.rtakeWhile_suffix _ _).subset hb)
      exact ⟨rfl, Prod.ext (string_strncpy_zeroed hfolder hpath)
        (CharArray.string_of_strcpy hname hfilename)⟩
  | download name | delete name =>
      rw [take_named rfl] at h
      rcases exists_of_bind_map h with ⟨filename, path, hfilename, hpath, rfl⟩
      exact ⟨rfl, Prod.ext (CharArray.string_of_strcpy hnil hpath)
        (CharArray.string_of_strcpy horder hfilename)⟩
  | listServer | listClient | getSyncDir | exit =>
      rw [take_plain rfl] at h
      rcases exists_of_bind_map h with ⟨path, filename, hpath, hfilename, rfl⟩
      exact ⟨rfl, Prod.ext (CharArray.string_of_strcpy hnil hpath)
        (CharArray.string_of_strcpy hnil hfilename)⟩
  | invalidCommand =>
      rw [take_invalidCommand] at h
      cases h
      refine ⟨rfl, Prod.ext ?_ ?_⟩
      · exact (congrArg CharArray.string hzero.1).trans string_zeroed
      · exact (congrArg CharArray.string hzero.2).trans string_zeroed

/-- A line in which a command was found whose copies fit. -/
theorem prepared_of_ofLine (hline : Shared.NulFree line) (hfirst : (firstToken line).length ≤ 49)
    (horder : Order.ofLine line = some order) (hfits : order.Fits) :
    ∃ j ∈ prepared line, j.commandId = order.id ∧ (j.path.string, j.filename.string) =
      order.leaves := by
  obtain ⟨copy, hcopy⟩ := cleared.commandName.exists_strcpy (Nat.lt_succ_of_le hfirst)
  obtain ⟨j, hj⟩ : ∃ j, WholeInstruction.take { cleared with commandName := copy } order = some j :=
    Option.isSome_iff_exists.1 (take_isSome_iff.2 hfits)
  refine ⟨j, ?_, leaves_of_take rfl (Order.nulFree_ofLine hline horder) hj⟩
  simp only [prepared, hcopy, horder, Option.bind_some, hj, Option.mem_def]

end Readings

/-- A line with a first token and an argument behind one space. -/
def Asks (line token argument : Bytes) : Prop :=
  ∃ lead, (∀ b ∈ lead, b = space) ∧ line = lead ++ (token ++ space :: argument)

/-- A line with a first token, whatever follows. -/
def Opens (line token : Bytes) : Prop :=
  ∃ lead rest, (∀ b ∈ lead, b = space) ∧ (∀ b ∈ rest.head?, b = space) ∧
    line = lead ++ (token ++ rest)

/-- What was prepared holds a command with two strings. -/
def Holds (result : Option WholeInstruction) (id : CommandId) (path filename : Bytes) : Prop :=
  ∃ i ∈ result, i.commandId = id ∧ i.path.string = path ∧ i.filename.string = filename

/-- The commands that take no argument. -/
def plainCommands : List (Bytes × CommandId) :=
  [(listServer, .listServer), (listClient, .listClient), (getSyncDir, .getSyncDir), (exit, .exit)]

def commandNames : List Bytes :=
  [upload, download, delete] ++ plainCommands.map Prod.fst

/-- How a line is to be read. -/
structure ReadsAs (line : Bytes) (result : Option WholeInstruction) : Prop where
  upload : ∀ r, Asks line Box.upload r → r.head? = some slash → (Order.name r).length ≤ 49 →
    ∃ i ∈ result, i.commandId = .upload ∧ i.path.string ++ i.filename.string = r ∧
      i.path.string.getLast? = some slash ∧ slash ∉ i.filename.string
  uploadInvalid : ∀ r, Asks line Box.upload r → r ≠ [] → r.head? ≠ some slash →
    Holds result .invalidCommand [] []
  download : ∀ r, Asks line Box.download r → r ≠ [] → r.length ≤ 49 → Holds result .download [] r
  delete : ∀ r, Asks line Box.delete r → r ≠ [] → r.length ≤ 49 → Holds result .delete [] r
  plain : ∀ c ∈ plainCommands, Opens line c.1 → Holds result c.2 [] []
  other : ∀ token, token ≠ [] → (∀ b ∈ token, b ≠ space) → token ∉ commandNames →
    Opens line token → Holds result .invalidCommand [] []

section Shapes

variable {line token r : Bytes} {argument : Option Bytes} {order : Order}

/-- The names of the commands are words. -/
theorem word_of_mem_commandNames :
    ∀ token ∈ commandNames, (∀ b ∈ token, b ≠ space) ∧ token ≠ [] := by
  decide +kernel

theorem strtok_of_asks (hname : token ∈ commandNames) (hr : r ≠ []) (h : Asks line token r) :
    strtok line = some (token, some r) := by
  rcases h with ⟨lead, hlead, rfl⟩
  obtain ⟨htoken, hne⟩ := word_of_mem_commandNames token hname
  rw [strtok_words hlead htoken hne, if_neg hr]

theorem strtok_of_opens (htoken : ∀ b ∈ token, b ≠ space) (hne : token ≠ [])
    (h : Opens line token) : ∃ argument, strtok line = some (token, argument) := by
  rcases h with ⟨lead, rest, hlead, hrest, rfl⟩
  cases rest with
  | nil =>
      rw [List.append_nil]
      exact ⟨_, strtok_word hlead htoken hne⟩
  | cons b rest =>
      have hb : b = space := hrest b rfl
      subst hb
      exact ⟨_, strtok_words hlead htoken hne⟩

/-- The command of a line, once the line has been cut into its tokens. -/
theorem holds_of_strtok (hline : Shared.NulFree line) (hfirst : (firstToken line).length ≤ 49)
    (h : strtok line = some (token, argument))
    (horder : Order.ofTokens (.ofName token) argument = some order) (hfits : order.Fits) :
    Holds (prepared line) order.id order.leaves.1 order.leaves.2 := by
  have hshort : ¬50 ≤ token.length := by
    rw [firstToken_of_strtok h] at hfirst
    omega
  have hofLine : Order.ofLine line = some order := by
    rw [ofLine_eq h, if_neg hshort, horder]
  rcases prepared_of_ofLine hline hfirst hofLine hfits with ⟨i, hi, hid, hleaves⟩
  exact ⟨i, hi, hid, congrArg Prod.fst hleaves, congrArg Prod.snd hleaves⟩

theorem ofTokens_of_notMem (h : token ∉ commandNames) :
    Order.ofTokens (.ofName token) argument = some .invalidCommand := by
  have hid : CommandId.ofName token = .invalidCommand := by
    simp only [commandNames, plainCommands, List.map_cons, List.map_nil, List.cons_append,
      List.nil_append, List.mem_cons, List.not_mem_nil, or_false, not_or] at h
    simp [CommandId.ofName, h]
  rw [hid]
  rfl

theorem getLast_folder (h : slash ∈ r) : (Order.folder r).getLast? = some slash := by
  have hlast := List.rdropWhile_last_not (· ≠ slash) r (folder_ne_nil h)
  rw [List.getLast?_eq_some_getLast (folder_ne_nil h)]
  simpa [Order.folder] using hlast

theorem notMem_name : slash ∉ Order.name r := by
  intro h
  simpa using List.mem_rtakeWhile_imp h

/-- A line of at most 199 characters is read as it should be. -/
theorem readsAs_prepared (hlength : line.length ≤ 199) (hline : Shared.NulFree line)
    (hfirst : (firstToken line).length ≤ 49) : ReadsAs line (prepared line) where
  upload := by
    intro r hasks hslash hname
    have hmem : slash ∈ r := List.mem_of_head? hslash
    have hr : r ≠ [] := List.ne_nil_of_mem hmem
    have hstrtok := strtok_of_asks (by decide) hr hasks
    have hfolder : (Order.folder r).length ≤ 200 := by
      have hprefix := (List.rdropWhile_prefix (· ≠ slash) (l := r)).length_le
      rcases hasks with ⟨lead, _, rfl⟩
      simp only [List.length_append, List.length_cons] at hlength
      unfold Order.folder
      omega
    have horder : Order.ofTokens (.ofName Box.upload) (some r) = some (.upload r) := by
      have hid : CommandId.ofName Box.upload = .upload := by decide
      simp [hid, Order.ofTokens, hslash]
    rcases holds_of_strtok hline hfirst hstrtok horder ⟨hfolder, Nat.lt_succ_of_le hname⟩ with
      ⟨i, hi, hid, hpath, hfilename⟩
    refine ⟨i, hi, hid, ?_, ?_, ?_⟩
    · rw [hpath, hfilename]
      exact folder_append_name r
    · rw [hpath]
      exact getLast_folder hmem
    · rw [hfilename]
      exact notMem_name
  uploadInvalid := by
    intro r hasks hr hslash
    have hstrtok := strtok_of_asks (by decide) hr hasks
    have horder : Order.ofTokens (.ofName Box.upload) (some r) = some .invalidCommand := by
      have hid : CommandId.ofName Box.upload = .upload := by decide
      simp [hid, Order.ofTokens, hslash]
    exact holds_of_strtok hline hfirst hstrtok horder trivial
  download := by
    intro r hasks hr hlen
    have hstrtok := strtok_of_asks (by decide) hr hasks
    exact holds_of_strtok hline hfirst hstrtok rfl (Nat.lt_succ_of_le hlen)
  delete := by
    intro r hasks hr hlen
    have hstrtok := strtok_of_asks (by decide) hr hasks
    exact holds_of_strtok hline hfirst hstrtok rfl (Nat.lt_succ_of_le hlen)
  plain := by
    intro c hc hopens
    have hname : c.1 ∈ commandNames := List.mem_append_right _ (List.mem_map_of_mem hc)
    obtain ⟨htoken, hne⟩ := word_of_mem_commandNames c.1 hname
    obtain ⟨argument, hstrtok⟩ := strtok_of_opens htoken hne hopens
    simp only [plainCommands, List.mem_cons, List.not_mem_nil, or_false] at hc
    rcases hc with rfl | rfl | rfl | rfl
    all_goals exact holds_of_strtok hline hfirst hstrtok rfl trivial
  other := by
    intro token hne htoken hnames hopens
    obtain ⟨argument, hstrtok⟩ := strtok_of_opens htoken hne hopens
    exact holds_of_strtok hline hfirst hstrtok (ofTokens_of_notMem hnames) trivial

/-- After `reset`, whatever the object held and wherever the line stands, `prepare` gives one
result for a line, and it is the one that the line is to be read as. -/
theorem prepare_after_reset (hlength : line.length ≤ 199) (hline : Shared.NulFree line)
    (hfirst : (firstToken line).length ≤ 49) :
    ∃ result, ReadsAs line result ∧ ∀ (i : WholeInstruction) (front behind : Bytes) (saved : Nat),
      (i.reset.prepare (buffer front line behind saved) front.length).map Prod.fst = result :=
  ⟨prepared line, readsAs_prepared hlength hline hfirst, fun _ _ _ _ => prepare_reset hline⟩

/-- `upload /x/f`. -/
theorem prepare_after_reset_upload :
    ∃ result, (∃ i ∈ result, i.commandId = .upload ∧
        i.path.string ++ i.filename.string = [47, 120, 47, 102]) ∧
      ∀ (i : WholeInstruction) (front behind : Bytes) (saved : Nat),
        (i.reset.prepare (buffer front (upload ++ [32, 47, 120, 47, 102]) behind saved)
          front.length).map Prod.fst = result := by
  have hfree : Shared.NulFree (upload ++ [32, 47, 120, 47, 102]) := by decide
  obtain ⟨result, hreads, hresult⟩ := prepare_after_reset (by decide) hfree (by decide)
  rcases hreads.upload [47, 120, 47, 102] ⟨[], by simp, by decide⟩ (by decide) (by decide) with
    ⟨i, hi, hid, hfile, _⟩
  exact ⟨result, ⟨i, hi, hid, hfile⟩, hresult⟩

end Shapes

/-! ## The lines that are handled -/

/-- What follows the first token of a line, behind one space. -/
def argumentOf (line : Bytes) : Bytes :=
  ((line.dropWhile (· = space)).dropWhile (· ≠ space)).drop 1

/-- The command of the line needs an argument, and nothing but spaces follows it. -/
def LacksArgument (line : Bytes) : Prop :=
  firstToken line ∈ [upload, download, delete] ∧ ∀ b ∈ argumentOf line, b = space

/-- `prepare` reached its end, and a line that lacks its argument is an invalid command. -/
def Handled (line : Bytes) (result : Option (WholeInstruction × Scanner)) : Prop :=
  ∃ i t, result = some (i, t) ∧ (LacksArgument line → i.commandId = .invalidCommand)

/-- A line with a first token that fits `command_name`, and with what its command needs: something
behind `upload` and one space, where a name behind slashes has to fit `filename`; a name that fits
`filename` and is not made of spaces behind the other two. -/
structure Proper (line : Bytes) : Prop where
  firstToken_ne_nil : firstToken line ≠ []
  firstToken_le : (firstToken line).length ≤ 49
  upload : firstToken line = Box.upload → argumentOf line ≠ [] ∧
    ((argumentOf line).head? = some slash → (Order.name (argumentOf line)).length ≤ 49)
  named : firstToken line ∈ [download, delete] →
    (∃ b ∈ argumentOf line, b ≠ space) ∧ (argumentOf line).length ≤ 49

/-- A command is found in the line, its copies fit, and it is an invalid one where the argument is
missing. -/
def Found (line : Bytes) : Prop :=
  ∃ order, Order.ofLine line = some order ∧ order.Fits ∧
    (LacksArgument line → order.id = .invalidCommand)

section Handled

open WholeInstruction

variable {line front behind : Bytes} {saved : Nat} {i j : WholeInstruction} {order : Order}

/-- The two tokens of a line. -/
theorem strtok_eq : strtok line = if firstToken line = [] then none else
    some (firstToken line, if argumentOf line = [] then none else some (argumentOf line)) := by
  unfold strtok firstToken argumentOf
  cases hstart : line.dropWhile (· = space) with
  | nil =>
      simp
  | cons b start =>
      have hb : b ≠ space := by
        have hnot := List.head?_dropWhile_not (· = space) line
        simpa [hstart] using hnot
      have hdrop : (b :: start).drop (((b :: start).takeWhile (· ≠ space)).length + 1) =
          ((b :: start).dropWhile (· ≠ space)).drop 1 := by
        conv_lhs =>
          arg 2
          rw [← List.takeWhile_append_dropWhile (p := (· ≠ space)) (l := b :: start)]
        rw [← List.drop_drop, List.drop_left]
      have hne : (b :: start).takeWhile (· ≠ space) ≠ [] := by
        simp [hb]
      simp only [hdrop, if_neg hne]
      cases ((b :: start).dropWhile (· ≠ space)).drop 1 <;> simp

theorem id_of_take (h : i.take order = some j) : j.commandId = order.id := by
  rcases Option.map_eq_some_iff.1 h with ⟨k, _, rfl⟩
  rfl

/-- What `prepare` does with a line, by the command that stands in it. -/
theorem handled_iff (hline : Shared.NulFree line) :
    Handled line (i.prepare (buffer front line behind saved) front.length) ↔
      (firstToken line).length ≤ 49 ∧ Found line := by
  have heq : (i.prepare (buffer front line behind saved) front.length).map Prod.fst = _ :=
    prepare_eq hline
  constructor
  · intro hhandled
    rcases hhandled with ⟨j, t, hj, hlacks⟩
    rw [hj, Option.map_some] at heq
    rcases Option.bind_eq_some_iff.1 heq.symm with ⟨copy, hcopy, hrest⟩
    rcases Option.bind_eq_some_iff.1 hrest with ⟨order, horder, htake⟩
    have hfirst : (firstToken line).length < 50 :=
      CharArray.strcpy_isSome_iff.1 (Option.isSome_iff_exists.2 ⟨copy, hcopy⟩)
    refine ⟨Nat.le_of_lt_succ hfirst, order, horder, ?_, ?_⟩
    · exact take_isSome_iff.1 (Option.isSome_iff_exists.2 ⟨j, htake⟩)
    · intro h
      rw [← id_of_take htake, hlacks h]
  · intro hfirst
    rcases hfirst with ⟨hfirst, order, horder, hfits, hlacks⟩
    obtain ⟨copy, hcopy⟩ := i.commandName.exists_strcpy (Nat.lt_succ_of_le hfirst)
    obtain ⟨j, hj⟩ : ∃ j, WholeInstruction.take { i with commandName := copy } order = some j :=
      Option.isSome_iff_exists.1 (take_isSome_iff.2 hfits)
    rw [hcopy, Option.bind_some, horder, Option.bind_some, hj] at heq
    rcases Option.map_eq_some_iff.1 heq with ⟨⟨j', t⟩, hresult, rfl⟩
    exact ⟨j', t, hresult, fun h => (id_of_take hj).trans (hlacks h)⟩

theorem length_argumentOf_le : (argumentOf line).length ≤ line.length := by
  unfold argumentOf
  have hfirst := (List.dropWhile_suffix (l := line) (· = space)).length_le
  have hsecond := (List.dropWhile_suffix (l := line.dropWhile (· = space)) (· ≠ space)).length_le
  rw [List.length_drop]
  omega

/-- The command of a line whose first token fits. -/
theorem ofLine_of_firstToken (hne : firstToken line ≠ []) (hfirst : (firstToken line).length ≤ 49) :
    Order.ofLine line = Order.ofTokens (.ofName (firstToken line))
      (if argumentOf line = [] then none else some (argumentOf line)) := by
  have hstrtok : strtok line = some (firstToken line,
      if argumentOf line = [] then none else some (argumentOf line)) := by
    rw [strtok_eq, if_neg hne]
  rw [ofLine_eq hstrtok, if_neg (by omega)]

theorem found_of_upload (hlength : line.length ≤ 199) (hfirst : (firstToken line).length ≤ 49)
    (htoken : firstToken line = upload) : Found line ↔ argumentOf line ≠ [] ∧
      ((argumentOf line).head? = some slash → (Order.name (argumentOf line)).length ≤ 49) := by
  have hne : firstToken line ≠ [] := by
    rw [htoken]
    decide
  have hid : CommandId.ofName upload = .upload := by decide
  have hofLine := ofLine_of_firstToken hne hfirst
  rw [htoken, hid, Order.ofTokens, if_pos rfl] at hofLine
  by_cases hnil : argumentOf line = []
  · rw [if_pos hnil] at hofLine
    simp [Found, hofLine, hnil]
  · rw [if_neg hnil, Option.map_some] at hofLine
    by_cases hslash : (argumentOf line).head? = some slash
    · have hlacks : ¬LacksArgument line := fun h => by
        have hspace := h.2 slash (List.mem_of_head? hslash)
        exact absurd hspace (by decide)
      have hfolder : (Order.folder (argumentOf line)).length ≤ 200 := by
        have hprefix := (List.rdropWhile_prefix (· ≠ slash) (l := argumentOf line)).length_le
        have hle : (argumentOf line).length ≤ line.length := length_argumentOf_le
        unfold Order.folder
        omega
      rw [if_pos hslash] at hofLine
      simp [Found, hofLine, Order.Fits, hfolder, hlacks, hnil, hslash, Nat.lt_succ_iff]
    · rw [if_neg hslash] at hofLine
      simp [Found, hofLine, Order.Fits, Order.id, hnil, hslash]

theorem found_of_named (hfirst : (firstToken line).length ≤ 49)
    (htoken : firstToken line ∈ [download, delete]) : Found line ↔
      (∃ b ∈ argumentOf line, b ≠ space) ∧ (argumentOf line).length ≤ 49 := by
  have hne : firstToken line ≠ [] := fun h => by
    rw [h] at htoken
    exact absurd htoken (by decide)
  have hneeds : firstToken line ∈ [upload, download, delete] := List.mem_cons_of_mem _ htoken
  have hlacks : LacksArgument line ↔ ∀ b ∈ argumentOf line, b = space :=
    ⟨fun h => h.2, fun h => ⟨hneeds, h⟩⟩
  obtain ⟨order, horder, hfits, hid⟩ : ∃ order : Bytes → Order,
      Order.ofLine line =
          (if argumentOf line = [] then none else some (argumentOf line)).map order ∧
        (∀ name, (order name).Fits ↔ name.length < 50) ∧
          ∀ name, (order name).id ≠ .invalidCommand := by
    have hofLine := ofLine_of_firstToken hne hfirst
    simp only [List.mem_cons, List.not_mem_nil, or_false] at htoken
    rcases htoken with htoken | htoken
    · rw [htoken] at hofLine
      exact ⟨.download, hofLine, fun _ => Iff.rfl, fun _ => by simp only [Order.id]; decide⟩
    · rw [htoken] at hofLine
      exact ⟨.delete, hofLine, fun _ => Iff.rfl, fun _ => by simp only [Order.id]; decide⟩
  by_cases hnil : argumentOf line = []
  · simp [Found, horder, hnil]
  · simp [Found, horder, hfits, hid, hlacks, hnil, Nat.lt_succ_iff, and_comm]

theorem found_of_other (hne : firstToken line ≠ []) (hfirst : (firstToken line).length ≤ 49)
    (htoken : firstToken line ∉ [upload, download, delete]) : Found line := by
  have hofLine := ofLine_of_firstToken hne hfirst
  have hlacks : ¬LacksArgument line := fun h => htoken h.1
  by_cases hplain : firstToken line ∈ commandNames
  · simp only [commandNames, plainCommands, List.map_cons, List.map_nil, List.mem_append, htoken,
      false_or, List.mem_cons, List.not_mem_nil, or_false] at hplain
    rcases hplain with hname | hname | hname | hname
    all_goals
      rw [hname] at hofLine
      exact ⟨_, hofLine, trivial, fun h => absurd h hlacks⟩
  · rw [ofTokens_of_notMem hplain] at hofLine
    exact ⟨_, hofLine, trivial, fun h => absurd h hlacks⟩

/-- The lines in which a command is found as it should be are the proper ones. -/
theorem proper_iff (hlength : line.length ≤ 199) :
    Proper line ↔ (firstToken line).length ≤ 49 ∧ Found line := by
  constructor
  · intro hproper
    refine ⟨hproper.firstToken_le, ?_⟩
    by_cases hneeds : firstToken line ∈ [upload, download, delete]
    · rcases List.mem_cons.1 hneeds with htoken | htoken
      · exact (found_of_upload hlength hproper.firstToken_le htoken).2 (hproper.upload htoken)
      · exact (found_of_named hproper.firstToken_le htoken).2 (hproper.named htoken)
    · exact found_of_other hproper.firstToken_ne_nil hproper.firstToken_le hneeds
  · intro hfound
    rcases hfound with ⟨hfirst, hfound⟩
    refine ⟨?_, hfirst, ?_, ?_⟩
    · intro hnil
      rcases hfound with ⟨order, horder, _⟩
      rw [Order.ofLine, strtok_eq, if_pos hnil] at horder
      cases horder
    · exact fun htoken => (found_of_upload hlength hfirst htoken).1 hfound
    · exact fun htoken => (found_of_named hfirst htoken).1 hfound

/-- `prepare` reaches its end with every copy fitting, and leaves `INVALID_COMMAND` for a line that
lacks its argument, exactly for the proper lines; what the object held does not matter. -/
theorem prepare_handled_iff (hlength : line.length ≤ 199) (hline : Shared.NulFree line) :
    Handled line (i.prepare (buffer front line behind saved) front.length) ↔ Proper line :=
  (handled_iff hline).trans (proper_iff hlength).symm

/-- `delete f`. -/
theorem prepare_handled_iff_delete :
    Handled (delete ++ [32, 102])
      (cleared.prepare (buffer [] (delete ++ [32, 102]) [] 0) 0) := by
  have hfree : Shared.NulFree (delete ++ [32, 102]) := by decide
  refine (prepare_handled_iff (by decide) hfree).2 ⟨by decide, by decide, ?_, ?_⟩
  · intro htoken
    exact absurd htoken (by decide)
  · intro _
    decide

/-- `upload` on its own: the second token is a null pointer. -/
theorem upload_alone_not_handled :
    ¬∀ line : Bytes, line.length ≤ 199 → Shared.NulFree line →
      ∀ (i : WholeInstruction) (front behind : Bytes) (saved : Nat),
        Handled line (i.prepare (buffer front line behind saved) front.length) := by
  intro h
  have hfree : Shared.NulFree upload := by decide
  rcases h upload (by decide) hfree cleared [] [] 0 with ⟨i, t, hresult, _⟩
  have hnull : cleared.prepare (buffer [] upload [] 0) 0 = none := by
    decide +kernel
  rw [List.length_nil, hnull] at hresult
  cases hresult

end Handled

end Box
end DropboxSimulator
