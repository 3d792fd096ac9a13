import DropboxSimulator.Box.Prepare
import DropboxSimulator.Client.Session

/-!
# Console — what a user types is what the server executes

`th_func_monitor_console` scans line after line into one buffer.  An empty line, and every round
behind the end of the input, leaves there what `prepare` has left of the line before, under an `a`.
What the buffer holds at the start matters only to an empty first line (`Console.Ready`).

1. The loop, on the bytes of the standard input.
2. `console_obeys`: it calls the functions of the client that the typed lines ask for, up to the
   first `exit` and for ever without one, and nothing else.
3. `typed_executed`: with the command thread of the server at the other end, these are the commands
   that are executed, in every order of the steps of the two.

The inotify thread of the Box, which shares the `Instruction`, has nothing to do meanwhile.
-/

namespace DropboxSimulator
namespace Box

open Library
open Client (ClientCommand)
open Server (Executed LoopState Buffers terminalThreadFunction)

/-! ## The loop -/

/-- `char line[200]`. -/
def lineSize : Nat :=
  200

/-- The files that can be read to their end, by their paths.  A path that ends with a slash is that
of a folder. -/
structure LocalFiles where
  content : Bytes → Option Bytes
  folder : ∀ path, content (path ++ [slash]) = none

/-- What a round of the loop finds: the files, and what the stack holds where the client puts its
command packet. -/
structure Surroundings where
  files : LocalFiles
  stale : CommandPacket

/-- A call of a function of the client, with what it is given. -/
inductive ClientCall
  | sendFile (filename fileContent : Bytes)
  | downloadFile (filename : Bytes)
  | deleteFile (filename : Bytes)
  | listServer
  | sendExitCommand
  deriving DecidableEq

/-- The thread between two rounds: the buffer, the input that is left, the pointer that `strtok`
keeps, the object, and the calls so far. -/
structure Console where
  line : Bytes
  stdin : Bytes
  saved : Nat
  instruction : WholeInstruction
  calls : List (CommandPacket × ClientCall)

/-- `scanf("%[^\n]", line)`: without a character before the newline, or before the end of the
input, nothing is scanned.  `none` where the line does not fit. -/
def scanf (stdin line : Bytes) : Option (Bytes × Bytes) :=
  let text := stdin.takeWhile (· ≠ newline)
  if text = [] then
    some (stdin, line)
  else if text.length < lineSize then
    some (stdin.drop text.length, text ++ 0 :: line.drop (text.length + 1))
  else
    none

/-- `getchar`. -/
def getchar (stdin : Bytes) : Bytes :=
  stdin.drop 1

/-- The `switch` on the command; `list_client` and `get_sync_dir` do not call the client. -/
def WholeInstruction.call (files : LocalFiles) (i : WholeInstruction) : Option ClientCall :=
  if i.commandId = .upload then
    (files.content (i.path.string ++ i.filename.string)).map (.sendFile i.filename.string)
  else if i.commandId = .download then
    some (.downloadFile i.filename.string)
  else if i.commandId = .delete then
    some (.deleteFile i.filename.string)
  else if i.commandId = .listServer then
    some .listServer
  else if i.commandId = .exit then
    some .sendExitCommand
  else
    none

namespace Console

/-- One round; `none` where a null pointer is used or a copy does not fit. -/
def round (c : Console) (s : Surroundings) : Option Console := do
  let (stdin, line) ← scanf c.stdin (c.line.set 0 97)
  let (instruction, t) ← c.instruction.reset.prepare ⟨line, c.saved⟩ 0
  return {
    line := t.memory
    stdin := getchar stdin
    saved := t.saved
    instruction := instruction
    calls := c.calls ++ ((instruction.call s.files).map fun call => (s.stale, call)).toList }

/-- `exit_command_typed` is set. -/
def Finished (c : Console) : Prop :=
  c.instruction.commandId = .exit

instance (c : Console) : Decidable c.Finished :=
  inferInstanceAs (Decidable (_ = _))

/-- The rounds of the loop, each with what it finds, as long as it goes on. -/
def monitorConsole : List Surroundings → Console → Option Console
  | [], c => some c
  | s :: rest, c => if c.Finished then some c else (c.round s).bind (monitorConsole rest)

end Console

/-! ## What is typed -/

/-- The command of a typed line. -/
def Order.ofTyped (line : Bytes) : Order :=
  if line = [] then .invalidCommand else (Order.ofLine line).getD .invalidCommand

/-- The call of the client that a command is. -/
def Order.call (files : LocalFiles) : Order → Option ClientCall
  | .upload file => (files.content file).map (.sendFile (name file))
  | .download name => some (.downloadFile name)
  | .delete name => some (.deleteFile name)
  | .listServer => some .listServer
  | .exit => some .sendExitCommand
  | .listClient | .getSyncDir | .invalidCommand => none

/-- The calls for lines that are typed one after another, up to an `exit`. -/
def obeyed : List (Bytes × Surroundings) → List (CommandPacket × ClientCall)
  | [] => []
  | (line, s) :: rest =>
      (((Order.ofTyped line).call s.files).map fun call => (s.stale, call)).toList ++
        if Order.ofTyped line = .exit then [] else obeyed rest

/-- The line as it is found when the next one is empty. -/
def overwritten (line : Bytes) : Bytes :=
  97 :: line.tail

/-- An empty line, or a proper one that fits the buffer, whose first token still fits when an `a`
stands in the first place. -/
def Typable (line : Bytes) : Prop :=
  line = [] ∨ Proper line ∧ Shared.NulFree line ∧ line.length < lineSize ∧
    (firstToken (overwritten line)).length ≤ 49

/-- The buffer holds a string of which an `a` in the first place makes an invalid command. -/
def Bland (line : Bytes) : Prop :=
  line.length = lineSize ∧ ∃ b text behind, line = b :: (text ++ 0 :: behind) ∧
    Shared.NulFree text ∧ (firstToken (97 :: text)).length ≤ 49

/-- A buffer that the loop can start with.  What it holds matters only when nothing is typed on the
first line. -/
def Console.Ready (c : Console) : Prop :=
  c.line.length = lineSize ∧ (c.stdin.takeWhile (· ≠ newline) = [] → Bland c.line)

section Buffer

open WholeInstruction

variable {line text behind rest : Bytes} {q p : Nat} {t t' : Scanner} {i j : WholeInstruction}
variable {str : Option Nat} {delim : Bytes}

/-- `strtok` at most puts a NUL somewhere. -/
theorem memory_strtok : (t.strtok str delim).2.memory = t.memory ∨
    ∃ q, (t.strtok str delim).2.memory = t.memory.set q 0 := by
  unfold Scanner.strtok
  dsimp only
  split
  · exact Or.inl rfl
  · split
    · exact Or.inl rfl
    · exact Or.inr ⟨_, rfl⟩

theorem switch_scanner (h : i.switchCommandId t = some (j, t')) :
    t' = t ∨ t' = (t.strtok none []).2 := by
  unfold switchCommandId at h
  generalize t.strtok none [] = found at h ⊢
  rcases found with ⟨start, t₁⟩
  dsimp only at h ⊢
  split at h
  · rcases Option.bind_eq_some_iff.1 h with ⟨p, _, h⟩
    split at h
    · rcases Option.bind_eq_some_iff.1 h with ⟨_, _, h⟩
      rcases Option.bind_eq_some_iff.1 h with ⟨_, _, h⟩
      rcases Option.bind_eq_some_iff.1 h with ⟨_, _, h⟩
      cases h
      exact Or.inr rfl
    · cases h
      exact Or.inr rfl
  · split at h
    · rcases Option.bind_eq_some_iff.1 h with ⟨_, _, h⟩
      rcases Option.bind_eq_some_iff.1 h with ⟨_, _, h⟩
      rcases Option.bind_eq_some_iff.1 h with ⟨_, _, h⟩
      cases h
      exact Or.inr rfl
    · split at h
      · cases h
        exact Or.inl rfl
      · rcases Option.bind_eq_some_iff.1 h with ⟨_, _, h⟩
        rcases Option.bind_eq_some_iff.1 h with ⟨_, _, h⟩
        cases h
        exact Or.inl rfl

/-- Neither does `prepare` do more to the line. -/
theorem prepare_memory {P : Bytes → Prop} (hset : ∀ memory q, P memory → P (memory.set q 0))
    (h : i.prepare t p = some (j, t')) (hp : P t.memory) : P t'.memory := by
  have hstrtok : ∀ (t : Scanner) str delim, P t.memory → P (t.strtok str delim).2.memory := by
    intro t str delim hp
    have hstrtok : (t.strtok str delim).2.memory = t.memory ∨
        ∃ q, (t.strtok str delim).2.memory = t.memory.set q 0 := memory_strtok
    rcases hstrtok with hmemory | ⟨q, hmemory⟩
    · rwa [hmemory]
    · rw [hmemory]
      exact hset _ q hp
  have hfirst := hstrtok t (some p) [space] hp
  unfold prepare at h
  generalize t.strtok (some p) [space] = found at h hfirst
  rcases found with ⟨start, t₁⟩
  rcases Option.bind_eq_some_iff.1 h with ⟨_, _, h⟩
  rcases Option.bind_eq_some_iff.1 h with ⟨_, _, h⟩
  rcases switch_scanner h with rfl | rfl
  · exact hfirst
  · exact hstrtok t₁ none [] hfirst

theorem firstToken_a : firstToken (97 :: text) = 97 :: text.takeWhile (· ≠ space) := by
  have hstart : (97 :: text).dropWhile (· = space) = 97 :: text :=
    List.dropWhile_cons_of_neg (by decide)
  rw [firstToken, hstart, List.takeWhile_cons_of_pos (by decide)]

theorem length_takeWhile_take_le {k : Nat} :
    ((text.take k).takeWhile (· ≠ space)).length ≤ (text.takeWhile (· ≠ space)).length := by
  conv_rhs => rw [← List.take_append_drop k text, List.takeWhile_append]
  split
  · have hle := (List.takeWhile_prefix (· ≠ space) (l := text.take k)).length_le
    rw [List.length_append]
    omega
  · exact le_rfl

/-- A NUL that is put somewhere leaves a bland line bland. -/
theorem Bland.set (h : Bland line) (q : Nat) : Bland (line.set q 0) := by
  rcases h with ⟨hlength, b, text, behind, rfl, hfree, htoken⟩
  refine ⟨by simpa using hlength, ?_⟩
  cases q with
  | zero =>
      exact ⟨0, text, behind, rfl, hfree, htoken⟩
  | succ k =>
      rw [List.set_cons_succ]
      rcases Nat.lt_or_ge k text.length with hk | hk
      · -- the string ends earlier
        refine ⟨b, text.take k, text.drop (k + 1) ++ 0 :: behind, ?_, ?_, ?_⟩
        · rw [List.set_append_left _ _ hk, List.set_eq_take_append_cons_drop, if_pos hk]
          simp
        · exact fun c hc => hfree c (List.mem_of_mem_take hc)
        · rw [firstToken_a, List.length_cons] at htoken ⊢
          have hle : ((text.take k).takeWhile (· ≠ space)).length ≤
              (text.takeWhile (· ≠ space)).length := length_takeWhile_take_le
          omega
      · rw [List.set_append_right _ _ hk]
        cases k - text.length with
        | zero =>
            exact ⟨b, text, behind, rfl, hfree, htoken⟩
        | succ n =>
            exact ⟨b, text, behind.set n 0, rfl, hfree, htoken⟩

/-- No name of a command begins with an `a`. -/
theorem ofLine_a (h : (firstToken (97 :: text)).length ≤ 49) :
    Order.ofLine (97 :: text) = some .invalidCommand := by
  have hne : firstToken (97 :: text) ≠ [] := by
    rw [firstToken_a]
    exact List.cons_ne_nil _ _
  have hname : firstToken (97 :: text) ∉ commandNames := by
    have hheads : ∀ name ∈ commandNames, name.head? ≠ some 97 := by decide +kernel
    intro hmem
    refine hheads _ hmem ?_
    rw [firstToken_a, List.head?_cons]
  rw [ofLine_of_firstToken hne h, ofTokens_of_notMem hname]

/-- What stands in the buffer once a line has been scanned: a string with a command that fits. -/
structure Scanned (order : Order) (memory : Bytes) : Prop where
  bland : Bland memory
  string : ∃ text behind, memory = text ++ 0 :: behind ∧ Shared.NulFree text ∧
    (firstToken text).length ≤ 49 ∧ Order.ofLine text = some order ∧ order.Fits

/-- Nothing is scanned; the `a` makes the line an invalid command. -/
theorem Bland.scanned (h : Bland line) : Scanned .invalidCommand (line.set 0 97) := by
  rcases h with ⟨hlength, b, text, behind, rfl, hfree, htoken⟩
  refine ⟨⟨by simpa using hlength, 97, text, behind, rfl, hfree, htoken⟩,
    97 :: text, behind, rfl, ?_, htoken, ofLine_a htoken, trivial⟩
  intro c hc
  rcases List.mem_cons.1 hc with rfl | hc
  · decide
  · exact hfree c hc

/-- A typed line is written over the one before. -/
theorem scanned_typable {memory : Bytes} (hmemory : memory.length = lineSize) (hne : line ≠ [])
    (hproper : Proper line) (hfree : Shared.NulFree line) (hlength : line.length < lineSize)
    (htoken : (firstToken (overwritten line)).length ≤ 49) :
    Scanned (Order.ofTyped line) (line ++ 0 :: memory.drop (line.length + 1)) := by
  have hfound : Found line := ((proper_iff (Nat.le_of_lt_succ hlength)).1 hproper).2
  rcases hfound with ⟨order, horder, hfits, _⟩
  have htyped : Order.ofTyped line = order := by
    rw [Order.ofTyped, if_neg hne, horder, Option.getD_some]
  refine ⟨⟨?_, ?_⟩, line, _, rfl, hfree, hproper.firstToken_le, ?_, ?_⟩
  · unfold lineSize at hmemory hlength ⊢
    simp only [List.length_append, List.length_cons, List.length_drop]
    omega
  · cases line with
    | nil =>
        exact absurd rfl hne
    | cons b text =>
        exact ⟨b, text, _, rfl, fun c hc => hfree c (List.mem_cons_of_mem _ hc), htoken⟩
  · rw [htyped, horder]
  · rwa [htyped]

/-- A line without a newline is what is scanned of the input. -/
theorem takeWhile_line (hnewline : newline ∉ line) (hrest : rest.takeWhile (· ≠ newline) = []) :
    (line ++ rest).takeWhile (· ≠ newline) = line := by
  have hall : ∀ b ∈ line, decide (b ≠ newline) = true := by
    intro b hb
    have hne : b ≠ newline := fun heq => hnewline (heq ▸ hb)
    exact decide_eq_true hne
  rw [List.takeWhile_append_of_pos hall, hrest, List.append_nil]

/-- `scanf` takes the typed line, and the command of it is found. -/
theorem scanf_typable {memory : Bytes} (hsize : memory.length = lineSize)
    (hbland : line = [] → Bland memory) (hline : Typable line) (hnewline : newline ∉ line)
    (hrest : rest.takeWhile (· ≠ newline) = []) :
    ∃ scanned, scanf (line ++ rest) (memory.set 0 97) = some (rest, scanned) ∧
      Scanned (Order.ofTyped line) scanned := by
  simp only [scanf, takeWhile_line hnewline hrest]
  by_cases hne : line = []
  · subst hne
    exact ⟨_, by rw [if_pos rfl, List.nil_append], (hbland rfl).scanned⟩
  · rcases hline with hnil | ⟨hproper, hfree, hlength, htoken⟩
    · exact absurd hnil hne
    · have hmemory : (memory.set 0 97).length = lineSize := by
        simpa using hsize
      exact ⟨_, by rw [if_neg hne, if_pos hlength, List.drop_left],
        scanned_typable hmemory hne hproper hfree hlength htoken⟩

/-- `prepare` finds the command of the string, and what it leaves of the line is bland again. -/
theorem Scanned.prepare {order : Order} {memory : Bytes} {saved : Nat} (h : Scanned order memory) :
    ∃ j t, i.reset.prepare ⟨memory, saved⟩ 0 = some (j, t) ∧ Bland t.memory ∧
      j.commandId = order.id ∧ (j.path.string, j.filename.string) = order.leaves := by
  rcases h with ⟨hbland, text, behind, rfl, hfree, htoken, horder, hfits⟩
  have hbuffer : (⟨text ++ 0 :: behind, saved⟩ : Scanner) = buffer [] text behind saved := rfl
  obtain ⟨j, hj, hid, hleaves⟩ := prepared_of_ofLine hfree htoken horder hfits
  have hprepare : (i.reset.prepare (buffer [] text behind saved) 0).map Prod.fst = some j :=
    (prepare_reset hfree).trans hj
  rcases Option.map_eq_some_iff.1 hprepare with ⟨⟨j', t⟩, hresult, rfl⟩
  refine ⟨j', t, hbuffer ▸ hresult, ?_, hid, hleaves⟩
  exact prepare_memory (fun _ q hm => Bland.set hm q) hresult hbland

end Buffer

section Rounds

variable {c : Console} {line rest : Bytes} {s : Surroundings} {files : LocalFiles}
variable {i : WholeInstruction} {order : Order}

/-- The object calls what its command is. -/
theorem call_of_leaves (hid : i.commandId = order.id)
    (hleaves : (i.path.string, i.filename.string) = order.leaves) :
    i.call files = order.call files := by
  have hpath : i.path.string = order.leaves.1 := congrArg Prod.fst hleaves
  have hname : i.filename.string = order.leaves.2 := congrArg Prod.snd hleaves
  cases order with
  | upload file =>
      simp only [WholeInstruction.call, hid, hpath, hname, Order.id, Order.leaves, Order.call,
        folder_append_name, if_true]
  | download name | delete name | listServer | listClient | getSyncDir | exit | invalidCommand =>
      simp only [WholeInstruction.call, hid, hname, Order.id, Order.leaves, Order.call]
      rfl

/-- Behind a round the buffer is as good for an empty line as for any other. -/
theorem Bland.ready (h : Bland c.line) : c.Ready :=
  ⟨h.1, fun _ => h⟩

/-- A round takes the next line and makes its call. -/
theorem round_typable (hready : c.Ready) (hline : Typable line) (hnewline : newline ∉ line)
    (hstdin : c.stdin = line ++ rest) (hrest : rest.takeWhile (· ≠ newline) = []) :
    ∃ c', c.round s = some c' ∧ Bland c'.line ∧ c'.stdin = getchar rest ∧
      c'.instruction.commandId = (Order.ofTyped line).id ∧
        c'.calls = c.calls ++
          (((Order.ofTyped line).call s.files).map fun call => (s.stale, call)).toList := by
  have hbland : line = [] → Bland c.line := by
    rintro rfl
    exact hready.2 (by rw [hstdin, takeWhile_line hnewline hrest])
  obtain ⟨scanned, hscanf, hscanned⟩ := scanf_typable hready.1 hbland hline hnewline hrest
  obtain ⟨j, t, hprepare, hbland', hid, hleaves⟩ : ∃ j t,
      c.instruction.reset.prepare ⟨scanned, c.saved⟩ 0 = some (j, t) ∧ Bland t.memory ∧
        j.commandId = (Order.ofTyped line).id ∧
          (j.path.string, j.filename.string) = (Order.ofTyped line).leaves := hscanned.prepare
  refine ⟨{
    line := t.memory
    stdin := getchar rest
    saved := t.saved
    instruction := j
    calls := c.calls ++ ((j.call s.files).map fun call => (s.stale, call)).toList }, ?_, hbland',
    rfl, hid, ?_⟩
  · simp only [Console.round, hstdin, hscanf, hprepare, Option.bind_eq_bind, Option.bind_some]
    rfl
  · rw [call_of_leaves hid hleaves]

theorem Order.id_eq_exit : order.id = .exit ↔ order = .exit := by
  cases order with
  | exit =>
      simp [Order.id]
  | upload | download | delete | listServer | listClient | getSyncDir | invalidCommand =>
      simp only [Order.id, reduceCtorEq, iff_false]
      decide

/-- Behind the end of the input the loop goes on for ever and calls nothing. -/
theorem monitorConsole_idle (hbland : Bland c.line) (hgoing : ¬c.Finished) (hstdin : c.stdin = [])
    (rounds : List Surroundings) :
    ∃ c', Console.monitorConsole rounds c = some c' ∧ c'.calls = c.calls ∧ ¬c'.Finished := by
  induction rounds generalizing c with
  | nil =>
      exact ⟨c, rfl, rfl, hgoing⟩
  | cons s rounds ih =>
      have hempty : c.stdin = [] ++ [] := hstdin
      obtain ⟨c₁, hround, hbland₁, hstdin₁, hid, hcalls⟩ :=
        round_typable (s := s) hbland.ready (Or.inl rfl) List.not_mem_nil hempty rfl
      have hgoing₁ : ¬c₁.Finished := by
        rw [Console.Finished, hid, Order.id_eq_exit]
        exact nofun
      obtain ⟨c', hrun, hcalls', hgoing'⟩ := ih hbland₁ hgoing₁ hstdin₁
      refine ⟨c', ?_, ?_, hgoing'⟩
      · rw [Console.monitorConsole, if_neg hgoing, hround, Option.bind_some, hrun]
      · rw [hcalls', hcalls]
        exact List.append_nil _

/-- Once it is finished the loop does nothing more. -/
theorem monitorConsole_finished (h : c.Finished) (rounds : List Surroundings) :
    Console.monitorConsole rounds c = some c := by
  cases rounds with
  | nil =>
      rfl
  | cons s rounds =>
      rw [Console.monitorConsole, if_pos h]

/-- The loop takes line after line. -/
theorem monitorConsole_typed {typed : List (Bytes × Surroundings)} (hready : c.Ready)
    (hgoing : ¬c.Finished) (htyped : ∀ t ∈ typed, Typable t.1 ∧ newline ∉ t.1)
    (hstdin : c.stdin = [newline].intercalate (typed.map Prod.fst)) (later : List Surroundings) :
    ∃ c', Console.monitorConsole (typed.map Prod.snd ++ later) c = some c' ∧
      c'.calls = c.calls ++ obeyed typed ∧
        (c'.Finished ↔ ∃ t ∈ typed, Order.ofTyped t.1 = .exit) := by
  induction typed generalizing c with
  | nil =>
      have hbland : Bland c.line := hready.2 (by rw [hstdin]; rfl)
      obtain ⟨c', hrun, hcalls, hgoing'⟩ := monitorConsole_idle hbland hgoing hstdin later
      exact ⟨c', hrun, by simp [hcalls, obeyed], by simpa using hgoing'⟩
  | cons t typed ih =>
      rcases t with ⟨line, s⟩
      obtain ⟨hline, hnewline⟩ := htyped (line, s) List.mem_cons_self
      obtain ⟨rest, hstdin', hrest, hnext⟩ : ∃ rest, c.stdin = line ++ rest ∧
          rest.takeWhile (· ≠ newline) = [] ∧
            getchar rest = [newline].intercalate (typed.map Prod.fst) := by
        cases typed with
        | nil =>
            exact ⟨[], by simpa using hstdin, rfl, rfl⟩
        | cons t' typed =>
            refine ⟨newline :: [newline].intercalate ((t' :: typed).map Prod.fst), ?_, rfl, rfl⟩
            rw [hstdin, List.map_cons, List.map_cons, List.intercalate_cons_cons,
              List.append_assoc]
            rfl
      obtain ⟨c₁, hround, hbland₁, hstdin₁, hid, hcalls⟩ :=
        round_typable (s := s) hready hline hnewline hstdin' hrest
      have hfinished : c₁.Finished ↔ Order.ofTyped line = .exit := by
        rw [Console.Finished, hid, Order.id_eq_exit]
      have hfirst : Console.monitorConsole (((line, s) :: typed).map Prod.snd ++ later) c =
          Console.monitorConsole (typed.map Prod.snd ++ later) c₁ := by
        rw [List.map_cons, List.cons_append, Console.monitorConsole, if_neg hgoing, hround,
          Option.bind_some]
      rw [hfirst]
      by_cases hexit : Order.ofTyped line = .exit
      · refine ⟨c₁, monitorConsole_finished (hfinished.2 hexit) _, ?_, ?_⟩
        · rw [hcalls, obeyed, if_pos hexit, List.append_nil]
        · exact ⟨fun _ => ⟨(line, s), List.mem_cons_self, hexit⟩, fun _ => hfinished.2 hexit⟩
      · obtain ⟨c', hrun, hcalls', hfinished'⟩ := ih hbland₁.ready (mt hfinished.1 hexit)
          (fun t ht => htyped t (List.mem_cons_of_mem _ ht)) (hstdin₁.trans hnext)
        refine ⟨c', hrun, ?_, ?_⟩
        · rw [hcalls', hcalls, obeyed, if_neg hexit, List.append_assoc]
        · simp [hfinished', hexit]

end Rounds

/-- The parts between the newlines have no newline. -/
theorem notMem_of_mem_splitOn {bs : Bytes} : ∀ line ∈ bs.splitOn newline, newline ∉ line := by
  induction bs with
  | nil =>
      simp
  | cons b bs ih =>
      rw [List.splitOn_cons_eq_if_modifyHead]
      split
      · simpa using ih
      · next hb =>
          intro line hline
          cases hparts : bs.splitOn newline with
          | nil =>
              exact absurd hparts (List.splitOn_ne_nil _ _)
          | cons first parts =>
              rw [hparts] at hline ih
              rw [List.modifyHead_cons] at hline
              rcases List.mem_cons.1 hline with rfl | hline
              · have hne : newline ≠ b := fun heq => hb (by simp [heq])
                simpa [hne] using ih first List.mem_cons_self
              · exact ih line (List.mem_cons_of_mem _ hline)

/-- What is typed, put together again from its lines. -/
theorem lines_of_splitOn {stdin : Bytes} {typed : List (Bytes × Surroundings)}
    (h : stdin.splitOn newline = typed.map Prod.fst) :
    stdin = [newline].intercalate (typed.map Prod.fst) ∧ ∀ t ∈ typed, newline ∉ t.1 := by
  refine ⟨?_, fun t ht => ?_⟩
  · rw [← h, List.intercalate_splitOn]
  · have hmem : t.1 ∈ stdin.splitOn newline := by
      rw [h]
      exact List.mem_map_of_mem ht
    exact notMem_of_mem_splitOn t.1 hmem

/-- The console makes the calls that the typed lines ask for, up to the first `exit`, and no others,
however long it runs; and it is finished just if there is one. -/
theorem console_obeys {c : Console} {typed : List (Bytes × Surroundings)} (hready : c.Ready)
    (hgoing : ¬c.Finished) (hstdin : c.stdin.splitOn newline = typed.map Prod.fst)
    (htyped : ∀ t ∈ typed, Typable t.1) (later : List Surroundings) :
    ∃ c', Console.monitorConsole (typed.map Prod.snd ++ later) c = some c' ∧
      c'.calls = c.calls ++ obeyed typed ∧
        (c'.Finished ↔ ∃ t ∈ typed, Order.ofTyped t.1 = .exit) := by
  rcases lines_of_splitOn hstdin with ⟨hjoined, hlines⟩
  exact monitorConsole_typed hready hgoing (fun t ht => ⟨htyped t ht, hlines t ht⟩) hjoined later

/-- A Box whose console has not been typed to, with a buffer in which no string ends. -/
def Console.initial (stdin : Bytes) : Console where
  line := List.replicate lineSize 120
  stdin := stdin
  saved := 0
  instruction :=
    { path := Access.zeroed 200
      filename := Access.zeroed 50
      commandName := Access.zeroed 50
      commandId := 0 }
  calls := []

theorem ready_initial {stdin : Bytes} (h : stdin.takeWhile (· ≠ newline) ≠ []) :
    (Console.initial stdin).Ready :=
  ⟨List.length_replicate, fun hnil => absurd hnil h⟩

/-- A file `/a` of two bytes. -/
def oneFile : LocalFiles where
  content := fun path => if path = [47, 97] then some [1, 2] else none
  folder := by
    intro path
    refine if_neg fun h => ?_
    have hlast := congrArg List.getLast? h
    rw [List.getLast?_concat] at hlast
    exact absurd hlast (by decide)

def oneFileAround : Surroundings where
  files := oneFile
  stale := emptyPacket

instance : DecidablePred Proper := fun line =>
  decidable_of_iff
    (firstToken line ≠ [] ∧ (firstToken line).length ≤ 49 ∧
      (firstToken line = Box.upload → argumentOf line ≠ [] ∧
        ((argumentOf line).head? = some slash → (Order.name (argumentOf line)).length ≤ 49)) ∧
      (firstToken line ∈ [download, delete] →
        (∃ b ∈ argumentOf line, b ≠ space) ∧ (argumentOf line).length ≤ 49))
    ⟨fun ⟨hne, hle, hupload, hnamed⟩ => ⟨hne, hle, hupload, hnamed⟩,
      fun h => ⟨h.firstToken_ne_nil, h.firstToken_le, h.upload, h.named⟩⟩

instance : DecidablePred Typable := fun line =>
  inferInstanceAs (Decidable (line = [] ∨ Proper line ∧ Shared.NulFree line ∧
    line.length < lineSize ∧ (firstToken (overwritten line)).length ≤ 49))

/-- `upload /a`, nothing, and `exit`. -/
def uploadThenExit : List (Bytes × Surroundings) :=
  [(upload ++ [32, 47, 97], oneFileAround), ([], oneFileAround), (exit, oneFileAround)]

theorem console_obeys_uploadThenExit :
    ∃ c', Console.monitorConsole (uploadThenExit.map Prod.snd ++ [])
        (.initial (upload ++ [32, 47, 97, 10, 10] ++ exit)) = some c' ∧
      c'.calls = [(emptyPacket, .sendFile [97] [1, 2]), (emptyPacket, .sendExitCommand)] ∧
        c'.Finished := by
  have htyped : ∀ t ∈ uploadThenExit, Typable t.1 := by decide +kernel
  have hcalls : obeyed uploadThenExit =
      [(emptyPacket, .sendFile [97] [1, 2]), (emptyPacket, .sendExitCommand)] := by
    decide +kernel
  have hexit : ∃ t ∈ uploadThenExit, Order.ofTyped t.1 = .exit := by decide +kernel
  have hstdin : (upload ++ [32, 47, 97, 10, 10] ++ exit).splitOn newline =
      uploadThenExit.map Prod.fst := by
    decide +kernel
  obtain ⟨c', hrun, hcalled, hfinished⟩ :=
    console_obeys (ready_initial (by decide +kernel)) (by decide) hstdin htyped []
  exact ⟨c', hrun, by rw [hcalled, hcalls]; rfl, hfinished.2 hexit⟩

/-- Behind one space a first token of 49 characters fits, and overflows when the next line is
empty: with the `a` it has 50. -/
theorem overwritten_overflows :
    Proper (space :: List.replicate 49 120) ∧
      Console.monitorConsole [oneFileAround, oneFileAround]
        (.initial (space :: List.replicate 49 120 ++ [newline])) = none := by
  decide +kernel

/-! ## The server at the other end -/

/-- The call for a command. -/
def callFor : ClientCommand → ClientCall
  | .upload fileName fileContent => .sendFile fileName fileContent
  | .delete fileName => .deleteFile fileName
  | .listServer => .listServer

/-- The command of the server that a command of the console is, apart from the answer to a download
and the end of the session. -/
def Order.executed (files : LocalFiles) : Order → Option Executed
  | .upload file => (files.content file).map (.upload (name file))
  | .delete name => some (.delete name)
  | .listServer => some .listServer
  | .download _ | .exit | .listClient | .getSyncDir | .invalidCommand => none

/-- The commands of the server for typed lines. -/
def executedFor (typed : List (Bytes × Surroundings)) : List Executed :=
  typed.filterMap fun t => (Order.ofTyped t.1).executed t.2.files

/-- The session goes on with commands that are only acknowledged. -/
def Order.Continues : Order → Prop
  | .download _ | .exit => False
  | _ => True

instance : DecidablePred Order.Continues := fun order =>
  match order with
  | .download _ | .exit => inferInstanceAs (Decidable False)
  | .upload _ | .delete _ | .listServer | .listClient | .getSyncDir | .invalidCommand =>
      inferInstanceAs (Decidable True)

/-- For a file that is uploaded `prepareFilePacket` has room for the name, and the size fits an
`int`. -/
def Order.Roomy (files : LocalFiles) : Order → Prop
  | .upload file => ∀ content ∈ files.content file,
      (name file).length < content.length ∧ content.length < 2 ^ 31
  | _ => True

instance (files : LocalFiles) : DecidablePred (Order.Roomy files) := fun order =>
  match order with
  | .upload file => inferInstanceAs (Decidable (∀ content ∈ files.content file,
      (Order.name file).length < content.length ∧ content.length < 2 ^ 31))
  | .download _ | .delete _ | .listServer | .listClient | .getSyncDir | .exit | .invalidCommand =>
      inferInstanceAs (Decidable True)

theorem callFor_injective : Function.Injective callFor := by
  intro c c' h
  cases c <;> cases c' <;> simp_all [callFor]

section Session

variable {line : Bytes} {order : Order} {files : LocalFiles} {s : Surroundings}
variable {typed : List (Bytes × Surroundings)}

/-- Only a path from the root is uploaded. -/
theorem head_of_upload {file : Bytes} (h : Order.ofLine line = some (.upload file)) :
    file.head? = some slash := by
  unfold Order.ofLine at h
  split at h
  · cases h
  · next commandName argument htoken =>
      split at h
      · cases h
      · split at h
        · rcases Option.map_eq_some_iff.1 h with ⟨rest, _, h⟩
          split at h
          · next hslash =>
              cases h
              exact hslash
          · cases h
        · -- the other commands are not uploads
          repeat' split at h
          all_goals simp at h

/-- What is known of the command of a typed line. -/
theorem ofTyped_valid (h : Typable line) :
    (Order.ofTyped line).Fits ∧ (Order.ofTyped line).NulFree ∧
      ∀ file, Order.ofTyped line = .upload file → file.head? = some slash := by
  rcases h with rfl | ⟨hproper, hfree, hlength, _⟩
  · exact ⟨trivial, trivial, fun _ h => by cases h⟩
  · have hfound : Found line := ((proper_iff (Nat.le_of_lt_succ hlength)).1 hproper).2
    rcases hfound with ⟨order, horder, hfits, _⟩
    have hne : line ≠ [] := by
      rintro rfl
      exact hproper.firstToken_ne_nil rfl
    have htyped : Order.ofTyped line = order := by
      rw [Order.ofTyped, if_neg hne, horder, Option.getD_some]
    rw [htyped]
    exact ⟨hfits, Order.nulFree_ofLine hfree horder, fun file h => head_of_upload (h ▸ horder)⟩

/-- A file that can be read has a name behind the last slash of its path. -/
theorem name_ne_nil {file content : Bytes} (hhead : file.head? = some slash)
    (hcontent : files.content file = some content) : Order.name file ≠ [] := by
  intro hnil
  have hfolder : Order.folder file = file := by
    have hsplit := folder_append_name file
    rwa [hnil, List.append_nil] at hsplit
  have hlast := getLast_folder (List.mem_of_head? hhead)
  rw [hfolder] at hlast
  obtain ⟨path, hpath⟩ := List.getLast?_eq_some_iff.1 hlast
  rw [hpath, files.folder] at hcontent
  cases hcontent

/-- The call of a command that continues is that of a command of the client, which the server
executes. -/
theorem call_of_continues (hfits : order.Fits) (hfree : order.NulFree)
    (hhead : ∀ file, order = .upload file → file.head? = some slash)
    (hcontinues : order.Continues) (hroomy : order.Roomy files) :
    (order.call files = none ∧ order.executed files = none) ∨
      ∃ command : ClientCommand, order.call files = some (callFor command) ∧
        order.executed files = some command.executed ∧ command.Valid ∧ command.HasRoom := by
  cases order with
  | upload file =>
      cases hcontent : files.content file with
      | none =>
          exact Or.inl ⟨by simp [Order.call, hcontent], by simp [Order.executed, hcontent]⟩
      | some content =>
          obtain ⟨hroom, hsize⟩ := hroomy content hcontent
          have hname := name_ne_nil (hhead file rfl) hcontent
          have hnul : ∀ b ∈ Order.name file, b ≠ 0 := fun b hb =>
            hfree b ((List.rtakeWhile_suffix _ _).subset hb)
          refine Or.inr ⟨.upload (Order.name file) content, ?_, ?_, ?_, hroom⟩
          · simp [Order.call, hcontent, callFor]
          · simp [Order.executed, hcontent, ClientCommand.executed]
          · exact ⟨⟨List.length_pos_iff.2 hname, hfits.2⟩, hnul, hsize⟩
  | delete name =>
      exact Or.inr ⟨.delete name, rfl, rfl, ⟨hfits, hfree⟩, trivial⟩
  | listServer =>
      exact Or.inr ⟨.listServer, rfl, rfl, trivial, trivial⟩
  | download name | exit =>
      exact absurd hcontinues id
  | listClient | getSyncDir | invalidCommand =>
      exact Or.inl ⟨rfl, rfl⟩

/-- The calls are those of commands of the client. -/
theorem exists_commands (htyped : ∀ t ∈ typed, Typable t.1)
    (hcontinues : ∀ t ∈ typed, (Order.ofTyped t.1).Continues)
    (hroomy : ∀ t ∈ typed, (Order.ofTyped t.1).Roomy t.2.files) :
    ∃ commands : List (CommandPacket × ClientCommand),
      obeyed typed = commands.map (fun issued => (issued.1, callFor issued.2)) ∧
        commands.map (fun issued => issued.2.executed) = executedFor typed ∧
        ∀ issued ∈ commands, issued.2.Valid ∧ issued.2.HasRoom := by
  induction typed with
  | nil =>
      exact ⟨[], rfl, rfl, by simp⟩
  | cons t typed ih =>
      rcases t with ⟨line, s⟩
      obtain ⟨commands, hcalls, hexecuted, hvalid⟩ := ih
        (fun t ht => htyped t (List.mem_cons_of_mem _ ht))
        (fun t ht => hcontinues t (List.mem_cons_of_mem _ ht))
        fun t ht => hroomy t (List.mem_cons_of_mem _ ht)
      have hgoes := hcontinues (line, s) List.mem_cons_self
      have hexit : Order.ofTyped line ≠ .exit := by
        intro heq
        rw [heq] at hgoes
        exact hgoes
      obtain ⟨hfits, hfree, hhead⟩ := ofTyped_valid (htyped (line, s) List.mem_cons_self)
      rcases call_of_continues hfits hfree hhead hgoes (hroomy (line, s) List.mem_cons_self) with
        ⟨hcall, hnone⟩ | ⟨command, hcall, hsome, hok⟩
      · refine ⟨commands, ?_, ?_, hvalid⟩
        · rw [obeyed, if_neg hexit, hcall, hcalls]
          rfl
        · simp only [hexecuted, executedFor, List.filterMap_cons, hnone]
      · refine ⟨(s.stale, command) :: commands, ?_, ?_, ?_⟩
        · rw [obeyed, if_neg hexit, hcall, hcalls]
          rfl
        · simp only [List.map_cons, hexecuted, executedFor, List.filterMap_cons, hsome]
        · intro issued hmem
          rcases List.mem_cons.1 hmem with rfl | hmem
          · exact hok
          · exact hvalid issued hmem

/-- What is typed is executed: the console calls the client for the lines, one after another, and
in every order of the steps of the client and of its command thread in which a file name is read
alone, the server executes the commands of the lines in their order, none twice and none besides,
and has executed all when neither side can go on. -/
theorem typed_executed (buffers : Buffers) {c : Console} (hready : c.Ready)
    (hgoing : ¬c.Finished) (hcalls : c.calls = [])
    (hstdin : c.stdin.splitOn newline = typed.map Prod.fst)
    (htyped : ∀ t ∈ typed, Typable t.1)
    (hcontinues : ∀ t ∈ typed, (Order.ofTyped t.1).Continues)
    (hroomy : ∀ t ∈ typed, (Order.ofTyped t.1).Roomy t.2.files) :
    ∃ c' commands, Console.monitorConsole (typed.map Prod.snd) c = some c' ∧
      c'.calls = commands.map (fun issued => (issued.1, callFor issued.2)) ∧
        ∃ bound, ∀ sides w,
          runWhile (Duplex.step script (terminalThreadFunction buffers))
            (Unmixed LoopState.readsName) (Client.session commands) sides = some w →
          sides.length ≤ bound ∧ w.noted <+: executedFor typed ∧
            (w.Stuck script (terminalThreadFunction buffers) → w.noted = executedFor typed) := by
  obtain ⟨commands, hobeyed, hexecuted, hvalid⟩ := exists_commands htyped hcontinues hroomy
  rcases lines_of_splitOn hstdin with ⟨hjoined, hlines⟩
  obtain ⟨c', hrun, hcalled, _⟩ := monitorConsole_typed hready hgoing
    (fun t ht => ⟨htyped t ht, hlines t ht⟩) hjoined []
  have hleads : Leads (terminalThreadFunction buffers) LoopState.readsName (.command [])
      (Client.issue commands) (executedFor typed) := by
    rw [← hexecuted]
    exact Client.leads_issue (fun issued h => (hvalid issued h).1) fun issued h =>
      (hvalid issued h).2
  rw [List.append_nil] at hrun
  rw [hcalls, List.nil_append, hobeyed] at hcalled
  rcases hleads.runs with ⟨bound, hruns⟩
  refine ⟨c', commands, hrun, hcalled, bound, fun sides w hsteps => ?_⟩
  rcases hruns sides w hsteps with ⟨hle, rest, hall, hend⟩
  refine ⟨hle, ⟨rest, hall.symm⟩, fun hstuck => ?_⟩
  rw [hall, hend hstuck, List.append_nil]

end Session

/-- `upload /a`, nothing, and `delete a`. -/
def uploadThenDeleted : List (Bytes × Surroundings) :=
  [(upload ++ [32, 47, 97], oneFileAround), ([], oneFileAround),
    (delete ++ [32, 97], oneFileAround)]

theorem typed_executed_uploadThenDeleted :
    ∃ w, runWhile (Duplex.step script (terminalThreadFunction Client.clearBuffers))
        (Unmixed LoopState.readsName) (Client.session Client.uploadThenDelete)
        Client.uploadThenDeleteSteps = some w ∧
      w.noted = executedFor uploadThenDeleted := by
  have hroomy : ∀ t ∈ uploadThenDeleted, (Order.ofTyped t.1).Roomy t.2.files := by
    decide +kernel
  have hcontinues : ∀ t ∈ uploadThenDeleted, (Order.ofTyped t.1).Continues := by decide +kernel
  have hstdin : (upload ++ [32, 47, 97, 10, 10] ++ delete ++ [32, 97]).splitOn newline =
      uploadThenDeleted.map Prod.fst := by
    decide +kernel
  obtain ⟨c', commands, hrun, hcalled, bound, hall⟩ :=
    typed_executed Client.clearBuffers (ready_initial (by decide +kernel)) (by decide) rfl hstdin
      (by decide +kernel) hcontinues hroomy
  -- the commands are known from the calls
  obtain rfl : commands = Client.uploadThenDelete := by
    have hcalls : (Console.monitorConsole (uploadThenDeleted.map Prod.snd)
        (.initial (upload ++ [32, 47, 97, 10, 10] ++ delete ++ [32, 97]))).map Console.calls =
          some (Client.uploadThenDelete.map fun issued => (issued.1, callFor issued.2)) := by
      decide +kernel
    rw [hrun, Option.map_some, hcalled, Option.some.injEq] at hcalls
    have hinjective : Function.Injective fun issued : CommandPacket × ClientCommand =>
        (issued.1, callFor issued.2) := by
      intro a b h
      have hboth : (a.1, callFor a.2) = (b.1, callFor b.2) := h
      exact Prod.ext (Prod.mk.inj hboth).1 (callFor_injective (Prod.mk.inj hboth).2)
    exact hinjective.list_map hcalls
  have hends : (runWhile (Duplex.step script (terminalThreadFunction Client.clearBuffers))
      (Unmixed LoopState.readsName) (Client.session Client.uploadThenDelete)
      Client.uploadThenDeleteSteps).any
      (fun w => w.Stuck script (terminalThreadFunction Client.clearBuffers)) = true := by
    decide +kernel
  rcases (Option.any_eq_true _ _).1 hends with ⟨w, hw, hstuck⟩
  exact ⟨w, hw, (hall _ w hw).2.2 (of_decide_eq_true hstuck)⟩

end Box
end DropboxSimulator
