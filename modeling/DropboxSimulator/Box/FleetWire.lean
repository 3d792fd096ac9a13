import DropboxSimulator.Box.Fleet
import DropboxSimulator.Client.SendFile

/-!
# FleetWire — the commands of the fleet as bytes

In `Box/Fleet` a command is on its way as a whole.  Here it is what is written on the connections.

* `Wired`            : the writes that a communication thread has still to read are, in their order,
  those of the commands that it has still to receive;
* `Written.wired`    : this holds in every run in which a command thread writes the notifications of
  the commands that it tells, and they can be written in every run (`exists_written`);
* `Written.decoded`  : so the bytes that are still to be read are decoded into these commands;
* `upstream_served`  : every run of the bytes between a client that issues the commands of a device
  and its command thread is one of the steps in which they are served and told.
-/

namespace DropboxSimulator
namespace Box

open Library
open Client (ClientCommand changeDirectory)
open Server (LoopState Buffers terminalThreadFunction)

/-! ## From the server to the devices -/

/-- The loop of the communication thread takes the writes for the command, whatever packet it took
before, and is at its start again. -/
def Carries (buffers : Client.ReceiveBuffers) (writes : List Bytes) (c : Command) : Prop :=
  ∀ commandReceived, ∃ packet,
    Consumes (thFuncServerComm buffers) (.command commandReceived []) (solid writes) [c] []
      (.command packet [])

/-- The writes on the third connection of each device that have still to be read, a list for each
notification. -/
abbrev Wires :=
  Fin maxDevices → List (List Bytes)

/-- What is written with the descriptor. -/
def writesTo (sends : List (Int32 × List Bytes)) (fd : Int32) : List (List Bytes) :=
  (sends.filter fun send => send.1 = fd).map Prod.snd

/-- What a step does on the third connections: a command thread writes to the devices that it tells,
and a communication thread reads a notification. -/
def Writes (users : Server.Users) (user : Fin maxUsers) (w : Fleet) (wires wires' : Wires) :
    FleetStep → Prop
  | .tell d => ∃ c sends, w.telling d = some (commandOf c) ∧ Notifiable c ∧
      Server.Tells (session users user d) c users user (List.finRange maxDevices) sends ∧
        wires' = fun k => wires k ++ writesTo sends (users.device (user, k)).socket3
  | .receive d => wires' = Function.update wires d (wires d).tail
  | .change _ _ _ _ | .read _ _ | .handle _ | .finish _ | .serve _ | .apply _ => wires' = wires

/-- The runs of the fleet with what is written and read on the third connections. -/
inductive Written (users : Server.Users) (user : Fin maxUsers) : Fleet → Wires → Prop
  | start (files : Bytes → Option Bytes) : Written users user (.initial files) fun _ => []
  | next {w w' : Fleet} {wires wires' : Wires} {l : FleetStep} :
      Written users user w wires → w.step users user l = some w' →
        Writes users user w wires wires' l → Written users user w' wires'

/-- What is under way to a connected device is what is written on its third connection. -/
def Wired (buffers : Client.ReceiveBuffers) (users : Server.Users) (user : Fin maxUsers)
    (w : Fleet) (wires : Wires) : Prop :=
  ∀ k, Connected users user k → List.Forall₂ (Carries buffers) (wires k) (w.downstream k)

/-- The third connections of the devices are different ones. -/
def OwnConnections (users : Server.Users) (user : Fin maxUsers) : Prop :=
  ∀ j k, Connected users user k →
    (users.device (user, j)).socket3 = (users.device (user, k)).socket3 → j = k

/-- A command whose name fits a packet and whose content has a size that fits an `int`. -/
def Command.Tellable : Command → Prop
  | .upload name payload =>
      name.length ≤ 99 ∧ (∀ b ∈ name, b ≠ 0) ∧ payload.length < 2 ^ 31
  | .delete name => name.length ≤ 99 ∧ ∀ b ∈ name, b ≠ 0

section Notifying

variable {buffers : Client.ReceiveBuffers} {stale : CommandPacket} {writes : List Bytes}
variable {users : Server.Users} {user : Fin maxUsers} {d k : Fin maxDevices}
variable {devices : List (Fin maxDevices)} {sends : List (Int32 × List Bytes)}
variable {c : Server.FileCommand} {w w' : Fleet} {wires wires' : Wires} {l : FleetStep}

theorem carries_notification (hc : Notifiable c) (hwrites : c.notification stale = some writes) :
    Carries buffers writes (commandOf c) := by
  intro commandReceived
  obtain ⟨writes', packet, hwrites', hconsumes⟩ : ∃ writes' packet,
      c.notification stale = some writes' ∧
        Consumes (thFuncServerComm buffers) (.command commandReceived []) (solid writes')
          [commandOf c] [] (.command (cleared packet) []) := consumes_notification hc
  rw [hwrites, Option.some.injEq] at hwrites'
  subst hwrites'
  exact ⟨_, hconsumes⟩

/-- A command that can be told is that of a notification. -/
theorem Command.Tellable.exists_commandOf {c : Command} (h : c.Tellable) :
    ∃ fc, Notifiable fc ∧ commandOf fc = c := by
  cases c with
  | upload name payload =>
      exact ⟨.upload name payload, h, rfl⟩
  | delete name =>
      rcases h with ⟨hfits, hname⟩
      rcases emptyPacket.additionalInfo.exists_strcpy (Nat.lt_succ_of_le hfits) with ⟨info, hinfo⟩
      have hstring : info.string = name := CharArray.string_of_strcpy hname hinfo
      refine ⟨.delete { emptyPacket with command := cmdDelete, additionalInfo := info },
        ⟨rfl, ?_⟩, ?_⟩
      · rw [hstring]
        exact hfits
      · rw [commandOf, hstring]

/-- The loop over the devices comes to its end. -/
theorem exists_tells (hc : Notifiable c) (users : Server.Users) (user : Fin maxUsers)
    (d : Fin maxDevices) (devices : List (Fin maxDevices)) :
    ∃ sends, Server.Tells (session users user d) c users user devices sends := by
  induction devices with
  | nil =>
      exact ⟨[], .done⟩
  | cons k devices ih =>
      rcases ih with ⟨sends, htells⟩
      by_cases htold : Told users user d k
      · obtain ⟨writes, packet, hwrites, _⟩ : ∃ writes packet,
            c.notification emptyPacket = some writes ∧
              Consumes (thFuncServerComm Client.emptyReceiveBuffers) (.command emptyPacket [])
                (solid writes) [commandOf c] [] (.command (cleared packet) []) :=
          consumes_notification hc
        exact ⟨_, .told htold hwrites htells⟩
      · exact ⟨sends, .skipped htold htells⟩

/-- A device that is not among those that are visited is not written to. -/
theorem writesTo_of_notMem (hown : OwnConnections users user) (hk : Connected users user k)
    (htells : Server.Tells (session users user d) c users user devices sends)
    (hmem : k ∉ devices) : writesTo sends (users.device (user, k)).socket3 = [] := by
  have hother : ∀ send ∈ sends, send.1 ≠ (users.device (user, k)).socket3 := by
    intro send hsend heq
    have hfd : send.1 ∈ sends.map Prod.fst := List.mem_map_of_mem hsend
    rw [tells_told htells] at hfd
    rcases List.mem_map.1 hfd with ⟨j, hj, hsocket⟩
    have hjk : j = k := hown j k hk (hsocket.trans heq)
    exact hmem (hjk ▸ List.mem_of_mem_filter hj)
  rw [writesTo, List.filter_eq_nil_iff.2 (by simpa using hother), List.map_nil]

/-- A connected device is written one notification if it is told, and nothing otherwise. -/
theorem carries_writesTo (hown : OwnConnections users user) (hc : Notifiable c)
    (hk : Connected users user k)
    (htells : Server.Tells (session users user d) c users user devices sends)
    (hnodup : devices.Nodup) (hmem : k ∈ devices) :
    List.Forall₂ (Carries buffers) (writesTo sends (users.device (user, k)).socket3)
      (if Told users user d k then [commandOf c] else []) := by
  induction htells with
  | done =>
      cases hmem
  | @told j rest stale writes sends hother hwrites htells ih =>
      rcases List.nodup_cons.1 hnodup with ⟨hnot, hrest⟩
      by_cases hjk : j = k
      · subst hjk
        have hnothing := writesTo_of_notMem hown hk htells hnot
        have hthis : writesTo (((users.device (user, j)).socket3, writes) :: sends)
            (users.device (user, j)).socket3 = [writes] := by
          rw [writesTo, List.filter_cons_of_pos (by simp), List.map_cons]
          exact congrArg (writes :: ·) hnothing
        rw [hthis, if_pos (show Told users user d j from hother)]
        exact .cons (carries_notification hc hwrites) .nil
      · have hskip : writesTo (((users.device (user, j)).socket3, writes) :: sends)
            (users.device (user, k)).socket3 =
            writesTo sends (users.device (user, k)).socket3 := by
          have hne : (users.device (user, j)).socket3 ≠ (users.device (user, k)).socket3 :=
            fun heq => hjk (hown j k hk heq)
          rw [writesTo, List.filter_cons_of_neg (by simpa using hne)]
          rfl
        rw [hskip]
        exact ih hrest ((List.mem_cons.1 hmem).resolve_left fun heq => hjk heq.symm)
  | @skipped j rest sends hself htells ih =>
      rcases List.nodup_cons.1 hnodup with ⟨hnot, hrest⟩
      by_cases hjk : j = k
      · subst hjk
        rw [writesTo_of_notMem hown hk htells hnot, if_neg (show ¬Told users user d j from hself)]
        exact .nil
      · exact ih hrest ((List.mem_cons.1 hmem).resolve_left fun heq => hjk heq.symm)

theorem Wired.tell (hown : OwnConnections users user) (h : Wired buffers users user w wires)
    (hc : Notifiable c) (htelling : w.telling d = some (commandOf c))
    (htells : Server.Tells (session users user d) c users user (List.finRange maxDevices) sends)
    (hstep : w.step users user (.tell d) = some w') :
    Wired buffers users user w'
      fun k => wires k ++ writesTo sends (users.device (user, k)).socket3 := by
  simp only [Fleet.step, htelling] at hstep
  cases hstep
  intro k hk
  have hnew : List.Forall₂ (Carries buffers) (writesTo sends (users.device (user, k)).socket3)
      (if Told users user d k then [commandOf c] else []) :=
    carries_writesTo hown hc hk htells (List.nodup_finRange _) (List.mem_finRange _)
  have hboth := List.rel_append (h k hk) hnew
  dsimp only
  split at hboth
  · next htold =>
      rwa [if_pos htold]
  · next htold =>
      rw [if_neg htold]
      simpa using hboth

/-- The command that a communication thread receives is the one that its loop reads. -/
theorem Wired.receive (h : Wired buffers users user w wires) (hk : Connected users user d)
    (hstep : w.step users user (.receive d) = some w') :
    ∃ writes rest c, wires d = writes :: rest ∧ Carries buffers writes c ∧
      (w'.folders d).applying = some c ∧
        List.Forall₂ (Carries buffers) rest (w'.downstream d) := by
  have hd := h d hk
  simp only [Fleet.step] at hstep
  split at hstep
  · next c rest hdown _ =>
      cases hstep
      rw [hdown, List.forall₂_cons_right_iff] at hd
      rcases hd with ⟨writes, wires', hcarries, hrest, hwires⟩
      exact ⟨writes, wires', c, hwires, hcarries, by simp, by simpa using hrest⟩
  · cases hstep

/-- It takes nothing of what the others have to receive. -/
theorem downstream_receive (hstep : w.step users user (.receive d) = some w') (hkd : k ≠ d) :
    w'.downstream k = w.downstream k := by
  simp only [Fleet.step] at hstep
  split at hstep
  · cases hstep
    simp [hkd]
  · cases hstep

theorem Wired.step (hown : OwnConnections users user) (h : Wired buffers users user w wires)
    (hwrites : Writes users user w wires wires' l) (hstep : w.step users user l = some w') :
    Wired buffers users user w' wires' := by
  cases l with
  | tell d =>
      rcases hwrites with ⟨c, sends, htelling, hc, htells, rfl⟩
      exact h.tell hown hc htelling htells hstep
  | receive d =>
      cases hwrites
      intro k hk
      by_cases hkd : k = d
      · subst hkd
        obtain ⟨writes, rest, c, hwires, _, _, hrest⟩ := h.receive hk hstep
        rwa [Function.update_self, hwires, List.tail_cons]
      · rw [Function.update_of_ne hkd, downstream_receive hstep hkd]
        exact h k hk
  | change d mask name content =>
      cases hwrites
      cases hstep
      exact h
  | read d n | handle d | finish d | serve d | apply d =>
      cases hwrites
      simp only [Fleet.step] at hstep
      repeat' split at hstep
      all_goals cases hstep
      all_goals exact h

/-- In every run what the communication threads have still to read are the commands that they have
still to receive. -/
theorem Written.wired (hown : OwnConnections users user) (h : Written users user w wires) :
    Wired buffers users user w wires := by
  induction h with
  | start files =>
      exact fun _ _ => .nil
  | next _ hstep hwrites ih =>
      exact ih.step hown hwrites hstep

theorem Carries.all {ws : List (List Bytes)} {cs : List Command}
    (h : List.Forall₂ (Carries buffers) ws cs) (commandReceived : CommandPacket) :
    ∃ packet, Consumes (thFuncServerComm buffers) (.command commandReceived []) (solid ws.flatten)
      cs [] (.command packet []) := by
  induction h generalizing commandReceived with
  | nil =>
      exact ⟨commandReceived, .done _⟩
  | @cons writes c ws cs hcarries _ ih =>
      rcases hcarries commandReceived with ⟨packet, hfirst⟩
      rcases ih packet with ⟨last, hrest⟩
      refine ⟨last, ?_⟩
      rw [List.flatten_cons, Server.solid_append]
      exact hfirst.trans hrest

/-- A communication thread that is at the start of its loop decodes from the bytes that are still to
be read just the commands that are under way, and no byte is left over. -/
theorem Written.decoded (hown : OwnConnections users user) (h : Written users user w wires)
    (hk : Connected users user k) (buffers : Client.ReceiveBuffers)
    (commandReceived : CommandPacket) :
    ∃ packet, ∀ r, Reader.Ends (thFuncServerComm buffers)
        { state := .command commandReceived [], unread := (wires k).flatten.flatten, noted := [] }
        r ↔
      r = { state := .command packet [], unread := [], noted := w.downstream k } := by
  have hwired : List.Forall₂ (Carries buffers) (wires k) (w.downstream k) := h.wired hown k hk
  rcases Carries.all hwired commandReceived with ⟨packet, hconsumes⟩
  exact ⟨packet, Reader.ends_of_consumes resting_command hconsumes⟩

/-- Nothing holds up a run in which the commands that are told can be told. -/
theorem Written.exists_next (h : Written users user w wires)
    (hok : ∀ d, l = .tell d → ∀ c ∈ w.telling d, c.Tellable)
    (hstep : w.step users user l = some w') : ∃ wires', Written users user w' wires' := by
  cases l with
  | tell d =>
      cases htelling : w.telling d with
      | none =>
          simp [Fleet.step, htelling] at hstep
      | some c =>
          rcases (hok d rfl c htelling).exists_commandOf with ⟨fc, hfc, rfl⟩
          rcases exists_tells hfc users user d (List.finRange maxDevices) with ⟨sends, htells⟩
          exact ⟨_, h.next hstep ⟨fc, sends, htelling, hfc, htells, rfl⟩⟩
  | receive d =>
      exact ⟨_, h.next hstep rfl⟩
  | change d mask name content | read d n | handle d | finish d | serve d | apply d =>
      exact ⟨_, h.next hstep rfl⟩

/-- So the notifications can be written in every run in which that holds. -/
theorem exists_written {ok : Fleet → FleetStep → Prop} {files : Bytes → Option Bytes}
    (h : Reaches (Fleet.step users user) ok (.initial files) w)
    (hok : ∀ w d, ok w (.tell d) → ∀ c ∈ w.telling d, c.Tellable) :
    ∃ wires, Written users user w wires := by
  refine h.invariant (P := fun w => ∃ wires, Written users user w wires) ⟨_, .start files⟩ ?_
  rintro w l w' ⟨wires, hwritten⟩ hl hstep
  exact hwritten.exists_next (fun d hd => hok w d (hd ▸ hl)) hstep

end Notifying

/-! ## From a device to the server -/

/-- The call of the client by which the inotify thread sends a command. -/
def Command.client : Command → ClientCommand
  | .upload name payload => .upload name payload
  | .delete name => .delete name

/-- The command thread of the device serves commands and tells them, one after another. -/
def serving (d : Fin maxDevices) (n : Nat) : List FleetStep :=
  (List.replicate n [.serve d, .tell d]).flatten

section Serving

variable {users : Server.Users} {user : Fin maxUsers} {d : Fin maxDevices} {w : Fleet}

theorem changeDirectory_client (c : Command) (files : Bytes → Option Bytes) :
    changeDirectory c.client.executed files = c.perform files := by
  cases c with
  | upload | delete =>
      rfl

/-- What is served has changed the server's copy as `Client/SendFile` has it. -/
theorem run_serving (users : Server.Users) (user : Fin maxUsers) (hidle : w.telling d = none)
    {n : Nat} (hle : n ≤ (w.upstream d).length) :
    ∃ w', run (Fleet.step users user) w (serving d n) = some w' ∧ w'.telling d = none ∧
      w'.upstream d = (w.upstream d).drop n ∧
        w'.files = applyAll changeDirectory
          (((w.upstream d).take n).map fun c => c.client.executed) w.files := by
  induction n generalizing w with
  | zero =>
      exact ⟨w, rfl, hidle, rfl, rfl⟩
  | succ n ih =>
      cases hup : w.upstream d with
      | nil =>
          rw [hup] at hle
          exact absurd hle (by simp)
      | cons c rest =>
          obtain ⟨w₁, hround, hidle₁, hup₁, hfiles₁⟩ : ∃ w₁,
              run (Fleet.step users user) w [.serve d, .tell d] = some w₁ ∧
                w₁.telling d = none ∧ w₁.upstream d = rest ∧
                  w₁.files = c.perform w.files := by
            refine ⟨_, by simp [run_cons, Fleet.step, hup, hidle]; rfl, ?_, ?_, ?_⟩
            · simp
            · simp
            · rfl
          rw [hup, List.length_cons] at hle
          have hle₁ : n ≤ (w₁.upstream d).length := by
            rw [hup₁]
            omega
          obtain ⟨w', hrun, hidle', hup', hfiles'⟩ := ih hidle₁ hle₁
          refine ⟨w', ?_, hidle', ?_, ?_⟩
          · rw [serving, List.replicate_succ, List.flatten_cons, run_append, hround,
              Option.bind_some]
            exact hrun
          · rw [hup', hup₁, List.drop_succ_cons]
          · rw [hfiles', hup₁, hfiles₁, List.take_succ_cons, List.map_cons,
              ← changeDirectory_client]
            rfl

/-- The commands of a device, issued by its client over the bytes of its connection: whatever its
command thread has executed of them, in every order of the steps of the two in which a file name is
read alone, is what so many rounds of serving and telling do, and in the end it is all of them. -/
theorem upstream_served (users : Server.Users) (user : Fin maxUsers) (buffers : Buffers)
    (hidle : w.telling d = none) {sent : List (CommandPacket × ClientCommand)}
    (hsent : sent.map Prod.snd = (w.upstream d).map Command.client)
    (hvalid : ∀ issued ∈ sent, issued.2.Valid) (hroom : ∀ issued ∈ sent, issued.2.HasRoom) :
    ∃ bound, ∀ sides v,
      runWhile (Duplex.step script (terminalThreadFunction buffers))
        (Unmixed LoopState.readsName) (Client.session sent) sides = some v →
      sides.length ≤ bound ∧ ∃ w',
        run (Fleet.step users user) w (serving d v.noted.length) = some w' ∧
          (w.upstream d).map (fun c => c.client.executed) =
            v.noted ++ (w'.upstream d).map (fun c => c.client.executed) ∧
          w'.files = applyAll changeDirectory v.noted w.files ∧
          (v.Stuck script (terminalThreadFunction buffers) → w'.upstream d = []) := by
  have hexecuted : sent.map (fun issued => issued.2.executed) =
      (w.upstream d).map fun c => c.client.executed := by
    have hmap := congrArg (List.map ClientCommand.executed) hsent
    simpa [List.map_map, Function.comp_def] using hmap
  have hleads : Leads (terminalThreadFunction buffers) LoopState.readsName (.command [])
      (Client.issue sent) ((w.upstream d).map fun c => c.client.executed) := by
    rw [← hexecuted]
    exact Client.leads_issue hvalid hroom
  rcases hleads.runs with ⟨bound, hruns⟩
  refine ⟨bound, fun sides v hsteps => ?_⟩
  rcases hruns sides v hsteps with ⟨hbound, es, hall, hend⟩
  have hlength : (w.upstream d).length = v.noted.length + es.length := by
    simpa using congrArg List.length hall
  obtain ⟨w', hrun, _, hup, hfiles⟩ :=
    run_serving users user hidle (n := v.noted.length) (by omega)
  -- what has been executed is the first part of the commands
  rw [List.map_take, hall, List.take_left] at hfiles
  have hrest : (w'.upstream d).map (fun c => c.client.executed) = es := by
    rw [hup, List.map_drop, hall, List.drop_left]
  refine ⟨hbound, w', hrun, by rw [hrest, hall], hfiles, fun hstuck => ?_⟩
  rw [hend hstuck] at hrest
  exact List.map_eq_nil_iff.1 hrest

end Serving

end Box
end DropboxSimulator
