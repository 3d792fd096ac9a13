import DropboxSimulator.Library.Heap
import DropboxSimulator.Library.Scanning
import DropboxSimulator.Transfer

/-!
# Configuration — how a server learns what it is

`Server::getBackupServersIPs` reads `server.txt`: a primary finds `*`, its id and its own address, a
secondary something else in the first line, its id, and the addresses of itself, of the primary and
of the other secondary.  Each value is kept twice, in a field of the server and in `infoAsPrimary`
or `infoAsSecondary`.

All strings are copied into memory of their length, without room for the terminator, so what
`malloc` gives beyond that decides whether a copy stays within its block.
-/

namespace DropboxSimulator
namespace Server

open Library

/-! ## The function -/

structure AddressInfo where
  port : Int
  ip : Bytes
  deriving DecidableEq

structure InfoMeAsPrimary where
  myId : Int
  myPort : Int
  myIp : Bytes
  deriving DecidableEq

structure InfoMeAsSecondary where
  myId : Int
  myPort : Int
  myIp : Bytes
  primaryInfo : AddressInfo
  secondaryInfo : AddressInfo
  deriving DecidableEq

/-- The fields of a server that the function sets.  A `char *` is the memory that it points to. -/
structure ServerFields where
  infoAsPrimary : InfoMeAsPrimary
  infoAsSecondary : InfoMeAsSecondary
  isPrimary : Bool
  id : Int
  myIP : Bytes
  myPort : Int
  primaryIP : Bytes
  primaryPort : Int
  secondaryIP : Bytes
  secondaryPort : Int
  deriving DecidableEq

/-- `strlen` of a string, as an `int`. -/
def sizeOfIp (ip : Bytes) : Int :=
  toInt (cString ip).length

def primarySetInfo (h : Heap) (call : Nat) (s : ServerFields) (id port sizeIp : Int) (ip : Bytes) :
    Option ServerFields :=
  (h.copy call (toSize sizeIp) (cString ip)).map fun myIp =>
    { s with infoAsPrimary := { myId := id, myPort := port, myIp := myIp } }

def secondarySetInfo (h : Heap) (call : Nat) (s : ServerFields) (id port sizeIp : Int)
    (ip : Bytes) : Option ServerFields :=
  (h.copy call (toSize sizeIp) (cString ip)).map fun myIp =>
    { s with infoAsSecondary :=
        { s.infoAsSecondary with myId := id, myPort := port, myIp := myIp } }

def secondarySetInfoFromPrimary (h : Heap) (call : Nat) (s : ServerFields) (port sizeIp : Int)
    (ip : Bytes) : Option ServerFields :=
  (h.copy call (toSize sizeIp) (cString ip)).map fun ip =>
    { s with infoAsSecondary :=
        { s.infoAsSecondary with primaryInfo := { port := port, ip := ip } } }

def secondarySetInfoFromSecondary (h : Heap) (call : Nat) (s : ServerFields) (port sizeIp : Int)
    (ip : Bytes) : Option ServerFields :=
  (h.copy call (toSize sizeIp) (cString ip)).map fun ip =>
    { s with infoAsSecondary :=
        { s.infoAsSecondary with secondaryInfo := { port := port, ip := ip } } }

/-- What a line with an address leaves: the `string` and the copy of the first token, the number in
the second, and the file and the line behind it. -/
structure ReadAddress where
  ip : Bytes
  copy : Bytes
  port : Int
  file : InStream
  line : Bytes

/-- The lines of the function that read an address, which it has once for each of them; the copies
are calls `call` and `call + 1` of `malloc`. -/
def readAddress (h : Heap) (call : Nat) (file : InStream) (line : Bytes) : Option ReadAddress := do
  let (file, line) := file.getline line
  let temp ← h.copy call line.length (cString line)
  let (parts, t) := Scanner.strtok ⟨temp, 0⟩ (some 0) [32]
  let parts ← parts
  let ip := stringAt t.memory parts
  let copy ← h.copy (call + 1) ip.length ip
  let (parts, t) := t.strtok none [32]
  let parts ← parts
  return { ip := ip, copy := copy, port := atoi (stringAt t.memory parts), file := file,
           line := line }

/-- `getBackupServersIPs`, where `serverTxt` is the file, if it can be read.  `none`: a null pointer
is used, or a copy leaves its block. -/
def getBackupServersIPs (h : Heap) (serverTxt : Option Bytes) (s : ServerFields) :
    Option ServerFields :=
  match serverTxt with
  | none => some s
  | some text => do
      let file : InStream := { unread := text, eof := false }
      let (file, line) := file.getline []
      if line = [42] then
        let (file, line) := file.getline line
        let id := atoi (cString line)
        let own ← readAddress h 0 file line
        let s := { s with isPrimary := true, id := id, myIP := own.ip, myPort := own.port }
        primarySetInfo h 2 s id own.port (sizeOfIp own.copy) own.copy
      else
        -- the first line is taken for the id, until the second one is
        let (file, line) := file.getline line
        let id := atoi (cString line)
        let own ← readAddress h 0 file line
        let primary ← readAddress h 2 own.file own.line
        let other ← readAddress h 4 primary.file primary.line
        let s :=
          { s with
            isPrimary := false, id := id
            myIP := own.ip, myPort := own.port
            primaryIP := primary.ip, primaryPort := primary.port
            secondaryIP := other.ip, secondaryPort := other.port }
        let s ← secondarySetInfo h 6 s id own.port (sizeOfIp own.copy) own.copy
        let s ← secondarySetInfoFromPrimary h 7 s primary.port (sizeOfIp primary.copy) primary.copy
        secondarySetInfoFromSecondary h 8 s other.port (sizeOfIp other.copy) other.copy

/-! ## Configurations -/

/-- An address to be written into the file. -/
structure Address where
  ip : Bytes
  port : Nat
  ip_ne_nil : ip ≠ []
  ip_bytes : ∀ b ∈ ip, b ≠ 32 ∧ b ≠ newline ∧ b ≠ 0
  port_lt : port < 2 ^ 31

/-- An id to be written into the file. -/
abbrev ServerId := {id : Nat // id < 2 ^ 31}

/-- What is to be written for a primary and for a secondary. -/
inductive ServerTxt
  | ofPrimary (id : ServerId) (own : Address)
  | ofSecondary (first : {line : Bytes // line ≠ [42] ∧ ∀ b ∈ line, b ≠ newline}) (id : ServerId)
      (own primary other : Address)

def Address.line (a : Address) : Bytes :=
  a.ip ++ 32 :: decimal a.port

/-- The file, with what stands behind its last line: nothing or a newline. -/
def ServerTxt.text (final : Bytes) : ServerTxt → Bytes
  | .ofPrimary id own => [42] ++ newline :: (decimal id ++ newline :: (own.line ++ final))
  | .ofSecondary first id own primary other =>
      first.val ++ newline :: (decimal id ++ newline :: (own.line ++ newline ::
        (primary.line ++ newline :: (other.line ++ final))))

/-- The copies of an address: its line, and its ip twice. -/
def Address.copies (a : Address) (call callOfInfo : Nat) : List Copy :=
  [⟨call, a.line.length, a.line⟩, ⟨call + 1, a.ip.length, a.ip⟩,
    ⟨callOfInfo, toSize (toInt a.ip.length), a.ip⟩]

/-- The copies that are made for a file. -/
def ServerTxt.copies : ServerTxt → List Copy
  | .ofPrimary _ own => own.copies 0 2
  | .ofSecondary _ _ own primary other =>
      own.copies 0 6 ++ primary.copies 2 7 ++ other.copies 4 8

/-- The server has learned what the file says. -/
def ServerTxt.SetIn (s : ServerFields) : ServerTxt → Prop
  | .ofPrimary id own =>
      s.isPrimary = true ∧ s.id = id.val ∧ s.myIP = own.ip ∧ s.myPort = own.port ∧
        s.infoAsPrimary.myId = id.val ∧ s.infoAsPrimary.myPort = own.port ∧
          cString s.infoAsPrimary.myIp = own.ip
  | .ofSecondary _ id own primary other =>
      s.isPrimary = false ∧ s.id = id.val ∧ s.myIP = own.ip ∧ s.myPort = own.port ∧
        s.primaryIP = primary.ip ∧ s.primaryPort = primary.port ∧
        s.secondaryIP = other.ip ∧ s.secondaryPort = other.port ∧
        s.infoAsSecondary.myId = id.val ∧ s.infoAsSecondary.myPort = own.port ∧
        cString s.infoAsSecondary.myIp = own.ip ∧
        s.infoAsSecondary.primaryInfo.port = primary.port ∧
        cString s.infoAsSecondary.primaryInfo.ip = primary.ip ∧
        s.infoAsSecondary.secondaryInfo.port = other.port ∧
        cString s.infoAsSecondary.secondaryInfo.ip = other.ip

section Addresses

variable {h : Heap} {a : Address} {file : InStream} {line : Bytes} {call : Nat}

theorem nulFree_ip : ∀ b ∈ a.ip, b ≠ 0 :=
  fun b hb => (a.ip_bytes b hb).2.2

theorem decimal_bytes {n : Nat} : ∀ b ∈ decimal n, b ≠ 32 ∧ b ≠ newline ∧ b ≠ 0 := by
  intro b hb
  have hdigit := isDigit_of_mem_decimal b hb
  refine ⟨?_, ?_, ?_⟩ <;>
    · intro hb
      subst hb
      exact absurd hdigit (by decide)

theorem line_bytes : ∀ b ∈ a.line, b ≠ newline ∧ b ≠ 0 := by
  intro b hb
  rcases List.mem_append.1 hb with hip | hport
  · exact (a.ip_bytes b hip).2
  · rcases List.mem_cons.1 hport with rfl | hport
    · decide
    · exact (decimal_bytes b hport).2

/-- The first call cuts the copy of a line behind the ip. -/
theorem strtok_ip {behind : Bytes} : Scanner.strtok ⟨a.line ++ 0 :: behind, 0⟩ (some 0) [32] =
    (some 0, ⟨a.ip ++ 0 :: (decimal a.port ++ 0 :: behind), a.ip.length + 1⟩) := by
  have htoken : ∀ b ∈ a.ip, b ∉ [(32 : UInt8)] ∧ b ≠ 0 := by
    intro b hb
    have hbytes := a.ip_bytes b hb
    exact ⟨by simpa using hbytes.1, hbytes.2.2⟩
  have hcall : Scanner.strtok ⟨[] ++ ([] ++ (a.ip ++ 32 :: (decimal a.port ++ 0 :: behind))), 0⟩
      (some 0) [32] = _ :=
    Scanner.strtok_token rfl (by simp) htoken a.ip_ne_nil (by decide)
  simpa [Address.line] using hcall

/-- The second call goes on behind the NUL and finds the port, which ends the string. -/
theorem strtok_port {behind : Bytes} :
    Scanner.strtok ⟨a.ip ++ 0 :: (decimal a.port ++ 0 :: behind), a.ip.length + 1⟩ none [32] =
      (some (a.ip.length + 1), ⟨a.ip ++ 0 :: (decimal a.port ++ 0 :: behind),
        a.ip.length + 1 + (decimal a.port).length⟩) := by
  have htoken : ∀ b ∈ decimal a.port, b ∉ [(32 : UInt8)] ∧ b ≠ 0 := by
    intro b hb
    have hbytes := decimal_bytes b hb
    exact ⟨by simpa using hbytes.1, hbytes.2.2⟩
  have hcall : Scanner.strtok ⟨(a.ip ++ [0]) ++ ([] ++ (decimal a.port ++ 0 :: behind)),
      a.ip.length + 1⟩ none [32] = _ :=
    Scanner.strtok_last (by simp) (by simp) htoken decimal_ne_nil rfl
  simpa using hcall

/-- An address is read as it was written, if its two copies stay within their blocks. -/
theorem readAddress_eq {file' : InStream} (hfile : file.getline line = (file', a.line)) :
    readAddress h call file line =
      (h.copy call a.line.length a.line).bind fun _ =>
        (h.copy (call + 1) a.ip.length a.ip).map fun copy =>
          { ip := a.ip, copy := copy, port := a.port, file := file', line := a.line } := by
  have hline : cString a.line = a.line := cString_of_nulFree fun b hb => (line_bytes b hb).2
  cases htemp : h.copy call a.line.length a.line with
  | none =>
      simp [readAddress, hfile, hline, htemp]
  | some temp =>
      rcases Heap.exists_of_copy htemp with ⟨behind, rfl⟩
      have hip : stringAt (a.ip ++ 0 :: (decimal a.port ++ 0 :: behind)) 0 = a.ip :=
        cString_append_nul nulFree_ip
      have hport : stringAt (a.ip ++ 0 :: (decimal a.port ++ 0 :: behind)) (a.ip.length + 1) =
          decimal a.port := by
        have hdrop : (a.ip ++ 0 :: (decimal a.port ++ 0 :: behind)).drop (a.ip.length + 1) =
            decimal a.port ++ 0 :: behind := by
          rw [← List.drop_drop, List.drop_left, List.drop_one, List.tail_cons]
        rw [stringAt, hdrop, cString_append_nul fun b hb => (decimal_bytes b hb).2.2]
      cases hcopy : h.copy (call + 1) a.ip.length a.ip with
      | none =>
          simp [readAddress, hfile, hline, htemp, strtok_ip, hip, hcopy]
      | some copy =>
          simp [readAddress, hfile, hline, htemp, strtok_ip, strtok_port, hip, hport, hcopy,
            atoi_decimal a.port_lt]

/-- What was read of an address, and where it was copied. -/
structure IsRead (a : Address) (r : ReadAddress) : Prop where
  ip : r.ip = a.ip
  port : r.port = a.port
  copy : cString r.copy = a.ip
  line : r.line = a.line

theorem isRead_of_readAddress {file' : InStream} {r : ReadAddress}
    (hfile : file.getline line = (file', a.line)) (hr : readAddress h call file line = some r) :
    IsRead a r ∧ r.file = file' ∧ h.Holds ⟨call, a.line.length, a.line⟩ ∧
      h.Holds ⟨call + 1, a.ip.length, a.ip⟩ := by
  rw [readAddress_eq hfile] at hr
  rcases Option.bind_eq_some_iff.1 hr with ⟨temp, htemp, hr⟩
  rcases Option.map_eq_some_iff.1 hr with ⟨copy, hcopy, rfl⟩
  exact ⟨⟨rfl, rfl, Heap.cString_of_copy nulFree_ip hcopy, rfl⟩, rfl, Heap.holds_of_copy htemp,
    Heap.holds_of_copy hcopy⟩

theorem exists_readAddress {file' : InStream} (hfile : file.getline line = (file', a.line))
    (hline : h.Holds ⟨call, a.line.length, a.line⟩)
    (hip : h.Holds ⟨call + 1, a.ip.length, a.ip⟩) :
    ∃ r, readAddress h call file line = some r := by
  obtain ⟨temp, htemp⟩ := hline.exists_copy
  obtain ⟨copy, hcopy⟩ := hip.exists_copy
  rw [readAddress_eq hfile, htemp, Option.bind_some, hcopy]
  exact ⟨_, rfl⟩

theorem size_of_isRead {r : ReadAddress} (hr : IsRead a r) :
    toSize (sizeOfIp r.copy) = toSize (toInt a.ip.length) := by
  rw [sizeOfIp, hr.copy]

end Addresses

section Files

variable {h : Heap} {s s' : ServerFields} {final : Bytes} {id : ServerId}
  {own primary other : Address} {first : {line : Bytes // line ≠ [42] ∧ ∀ b ∈ line, b ≠ newline}}

theorem newlineFree_line {a : Address} : ∀ b ∈ a.line, b ≠ newline :=
  fun b hb => (line_bytes b hb).1

theorem newlineFree_decimal {n : Nat} : ∀ b ∈ decimal n, b ≠ newline :=
  fun b hb => (decimal_bytes b hb).2.1

theorem atoi_cString_decimal (id : ServerId) : atoi (cString (decimal id)) = id.val := by
  rw [cString_of_nulFree fun b hb => (decimal_bytes b hb).2.2, atoi_decimal id.property]

/-- The first two lines of a primary's file. -/
theorem getBackupServersIPs_ofPrimary :
    getBackupServersIPs h (some ((ServerTxt.ofPrimary id own).text final)) s = (do
      let own ← readAddress h 0 ⟨own.line ++ final, false⟩ (decimal id)
      primarySetInfo h 2
        { s with isPrimary := true, id := id.val, myIP := own.ip, myPort := own.port }
        id.val own.port (sizeOfIp own.copy) own.copy) := by
  have hstar : InStream.getline ⟨(ServerTxt.ofPrimary id own).text final, false⟩ [] = (_, [42]) :=
    getline_append (by decide +kernel)
  have hid : InStream.getline ⟨decimal id ++ newline :: (own.line ++ final), false⟩ [42] =
      (_, decimal id) := getline_append newlineFree_decimal
  simp only [getBackupServersIPs, hstar, hid, if_pos, atoi_cString_decimal]

/-- The first two lines of a secondary's file. -/
theorem getBackupServersIPs_ofSecondary :
    getBackupServersIPs h (some ((ServerTxt.ofSecondary first id own primary other).text final)) s =
      (do
        let own ← readAddress h 0 ⟨own.line ++ newline ::
          (primary.line ++ newline :: (other.line ++ final)), false⟩ (decimal id)
        let primary ← readAddress h 2 own.file own.line
        let other ← readAddress h 4 primary.file primary.line
        let s := { s with
          isPrimary := false, id := id.val, myIP := own.ip, myPort := own.port
          primaryIP := primary.ip, primaryPort := primary.port
          secondaryIP := other.ip, secondaryPort := other.port }
        let s ← secondarySetInfo h 6 s id.val own.port (sizeOfIp own.copy) own.copy
        let s ← secondarySetInfoFromPrimary h 7 s primary.port (sizeOfIp primary.copy) primary.copy
        secondarySetInfoFromSecondary h 8 s other.port (sizeOfIp other.copy) other.copy) := by
  have hfirst : InStream.getline
      ⟨(ServerTxt.ofSecondary first id own primary other).text final, false⟩ [] =
        (_, first.val) := getline_append first.property.2
  have hid : InStream.getline ⟨decimal id ++ newline :: (own.line ++ newline ::
      (primary.line ++ newline :: (other.line ++ final))), false⟩ first.val = (_, decimal id) :=
    getline_append newlineFree_decimal
  simp only [getBackupServersIPs, hfirst, hid, if_neg first.property.1, atoi_cString_decimal]

/-- What a server has read of its file it has read as it was written, with copies that all stay
within their blocks. -/
theorem setIn_of_primary (hfinal : final = [] ∨ final = [newline])
    (hs : getBackupServersIPs h (some ((ServerTxt.ofPrimary id own).text final)) s = some s') :
    (ServerTxt.ofPrimary id own).SetIn s' ∧
      ∀ c ∈ (ServerTxt.ofPrimary id own).copies, h.Holds c := by
  obtain ⟨file, hfile⟩ : ∃ file, InStream.getline ⟨own.line ++ final, false⟩ (decimal id) =
      (file, own.line) := getline_last newlineFree_line hfinal
  rw [getBackupServersIPs_ofPrimary] at hs
  rcases Option.bind_eq_some_iff.1 hs with ⟨r, hr, hset⟩
  obtain ⟨hread, _, hline, hip⟩ := isRead_of_readAddress hfile hr
  rcases Option.map_eq_some_iff.1 hset with ⟨myIp, hcopy, rfl⟩
  rw [size_of_isRead hread, hread.copy] at hcopy
  refine ⟨⟨rfl, rfl, hread.ip, hread.port, rfl, hread.port, ?_⟩, ?_⟩
  · exact Heap.cString_of_copy nulFree_ip hcopy
  · simpa [ServerTxt.copies, Address.copies] using ⟨hline, hip, Heap.holds_of_copy hcopy⟩

theorem exists_of_primary (hfinal : final = [] ∨ final = [newline])
    (hcopies : ∀ c ∈ (ServerTxt.ofPrimary id own).copies, h.Holds c) :
    ∃ s', getBackupServersIPs h (some ((ServerTxt.ofPrimary id own).text final)) s = some s' := by
  obtain ⟨file, hfile⟩ : ∃ file, InStream.getline ⟨own.line ++ final, false⟩ (decimal id) =
      (file, own.line) := getline_last newlineFree_line hfinal
  simp only [ServerTxt.copies, Address.copies, List.forall_mem_cons] at hcopies
  obtain ⟨hline, hip, hinfo, _⟩ := hcopies
  obtain ⟨r, hr⟩ := exists_readAddress hfile hline hip
  obtain ⟨hread, _⟩ := isRead_of_readAddress hfile hr
  obtain ⟨myIp, hmyIp⟩ := hinfo.exists_copy
  rw [← size_of_isRead hread, ← hread.copy] at hmyIp
  rw [getBackupServersIPs_ofPrimary, hr]
  simp [primarySetInfo, hmyIp]

/-- The lines of the three addresses of a secondary's file. -/
theorem getline_addresses (hfinal : final = [] ∨ final = [newline]) (line : Bytes) :
    ∃ file file' file'' : InStream,
      InStream.getline ⟨own.line ++ newline :: (primary.line ++ newline :: (other.line ++ final)),
        false⟩ line = (file, own.line) ∧
      file.getline own.line = (file', primary.line) ∧
      file'.getline primary.line = (file'', other.line) := by
  obtain ⟨file'', hfile''⟩ : ∃ file, InStream.getline ⟨other.line ++ final, false⟩ primary.line =
      (file, other.line) := getline_last newlineFree_line hfinal
  exact ⟨_, _, file'', getline_append newlineFree_line, getline_append newlineFree_line, hfile''⟩

theorem setIn_of_secondary (hfinal : final = [] ∨ final = [newline])
    (hs : getBackupServersIPs h
      (some ((ServerTxt.ofSecondary first id own primary other).text final)) s = some s') :
    (ServerTxt.ofSecondary first id own primary other).SetIn s' ∧
      ∀ c ∈ (ServerTxt.ofSecondary first id own primary other).copies, h.Holds c := by
  obtain ⟨file, file', file'', hown, hprimary, hother⟩ := getline_addresses hfinal (decimal id)
  rw [getBackupServersIPs_ofSecondary] at hs
  rcases Option.bind_eq_some_iff.1 hs with ⟨r₁, hr₁, hs⟩
  obtain ⟨hread₁, hfile₁, hline₁, hip₁⟩ := isRead_of_readAddress hown hr₁
  rcases Option.bind_eq_some_iff.1 hs with ⟨r₂, hr₂, hs⟩
  rw [hfile₁, hread₁.line] at hr₂
  obtain ⟨hread₂, hfile₂, hline₂, hip₂⟩ := isRead_of_readAddress hprimary hr₂
  rcases Option.bind_eq_some_iff.1 hs with ⟨r₃, hr₃, hs⟩
  rw [hfile₂, hread₂.line] at hr₃
  obtain ⟨hread₃, _, hline₃, hip₃⟩ := isRead_of_readAddress hother hr₃
  -- the three copies for `infoAsSecondary`
  rcases Option.bind_eq_some_iff.1 hs with ⟨s₁, hs₁, hs⟩
  rcases Option.map_eq_some_iff.1 hs₁ with ⟨myIp, hcopy₁, rfl⟩
  rcases Option.bind_eq_some_iff.1 hs with ⟨s₂, hs₂, hs⟩
  rcases Option.map_eq_some_iff.1 hs₂ with ⟨ip₂, hcopy₂, rfl⟩
  rcases Option.map_eq_some_iff.1 hs with ⟨ip₃, hcopy₃, rfl⟩
  rw [size_of_isRead hread₁, hread₁.copy] at hcopy₁
  rw [size_of_isRead hread₂, hread₂.copy] at hcopy₂
  rw [size_of_isRead hread₃, hread₃.copy] at hcopy₃
  refine ⟨⟨rfl, rfl, hread₁.ip, hread₁.port, hread₂.ip, hread₂.port, hread₃.ip, hread₃.port, rfl,
    hread₁.port, Heap.cString_of_copy nulFree_ip hcopy₁, hread₂.port,
    Heap.cString_of_copy nulFree_ip hcopy₂, hread₃.port,
    Heap.cString_of_copy nulFree_ip hcopy₃⟩, ?_⟩
  simp only [ServerTxt.copies, Address.copies, List.cons_append, List.nil_append,
    List.forall_mem_cons]
  exact ⟨hline₁, hip₁, Heap.holds_of_copy hcopy₁, hline₂, hip₂, Heap.holds_of_copy hcopy₂, hline₃,
    hip₃, Heap.holds_of_copy hcopy₃, by simp⟩

theorem exists_of_secondary (hfinal : final = [] ∨ final = [newline])
    (hcopies : ∀ c ∈ (ServerTxt.ofSecondary first id own primary other).copies, h.Holds c) :
    ∃ s', getBackupServersIPs h
      (some ((ServerTxt.ofSecondary first id own primary other).text final)) s = some s' := by
  obtain ⟨file, file', file'', hown, hprimary, hother⟩ := getline_addresses hfinal (decimal id)
  simp only [ServerTxt.copies, Address.copies, List.cons_append, List.nil_append,
    List.forall_mem_cons] at hcopies
  obtain ⟨hline₁, hip₁, hinfo₁, hline₂, hip₂, hinfo₂, hline₃, hip₃, hinfo₃, _⟩ := hcopies
  obtain ⟨r₁, hr₁⟩ := exists_readAddress hown hline₁ hip₁
  obtain ⟨hread₁, hfile₁, _⟩ := isRead_of_readAddress hown hr₁
  obtain ⟨r₂, hr₂⟩ := exists_readAddress hprimary hline₂ hip₂
  obtain ⟨hread₂, hfile₂, _⟩ := isRead_of_readAddress hprimary hr₂
  obtain ⟨r₃, hr₃⟩ := exists_readAddress hother hline₃ hip₃
  obtain ⟨hread₃, _⟩ := isRead_of_readAddress hother hr₃
  rw [← hfile₁, ← hread₁.line] at hr₂
  rw [← hfile₂, ← hread₂.line] at hr₃
  obtain ⟨myIp, hmyIp⟩ := hinfo₁.exists_copy
  obtain ⟨ip₂, hip₂⟩ := hinfo₂.exists_copy
  obtain ⟨ip₃, hip₃⟩ := hinfo₃.exists_copy
  rw [← size_of_isRead hread₁, ← hread₁.copy] at hmyIp
  rw [← size_of_isRead hread₂, ← hread₂.copy] at hip₂
  rw [← size_of_isRead hread₃, ← hread₃.copy] at hip₃
  rw [getBackupServersIPs_ofSecondary]
  simp [hr₁, hr₂, hr₃, secondarySetInfo, secondarySetInfoFromPrimary,
    secondarySetInfoFromSecondary, hmyIp, hip₂, hip₃]

/-- The function sets every field to what the file says if and only if what `malloc` gives for the
length of each string that is copied has room for its terminator. -/
theorem getBackupServersIPs_iff (txt : ServerTxt) (hfinal : final = [] ∨ final = [newline]) :
    (∃ s', getBackupServersIPs h (some (txt.text final)) s = some s' ∧ txt.SetIn s') ↔
      ∀ c ∈ txt.copies, h.Holds c := by
  cases txt with
  | ofPrimary id own =>
      constructor
      · intro hset
        rcases hset with ⟨s', hs', _⟩
        exact (setIn_of_primary hfinal hs').2
      · intro hcopies
        obtain ⟨s', hs'⟩ := exists_of_primary hfinal hcopies
        exact ⟨s', hs', (setIn_of_primary hfinal hs').1⟩
  | ofSecondary first id own primary other =>
      constructor
      · intro hset
        rcases hset with ⟨s', hs', _⟩
        exact (setIn_of_secondary hfinal hs').2
      · intro hcopies
        obtain ⟨s', hs'⟩ := exists_of_secondary hfinal hcopies
        exact ⟨s', hs', (setIn_of_secondary hfinal hs').1⟩

end Files

/-! ## Blocks that are padded -/

/-- Blocks of 24, 40, 56, … bytes, the least that has the size that is asked for. -/
def paddedHeap : Heap where
  malloc := fun _ size =>
    if size < 2 ^ 63 then some (List.replicate (max 24 ((size + 23) / 16 * 16 - 8)) 0) else none
  size_le := by
    intro i size block hblock
    split at hblock
    · cases hblock
      rw [List.length_replicate]
      omega
    · cases hblock

theorem holds_paddedHeap {c : Copy} (hsize : c.size < 2 ^ 63) :
    paddedHeap.Holds c ↔ c.string.length < max 24 ((c.size + 23) / 16 * 16 - 8) := by
  simp only [Heap.Holds, paddedHeap, if_pos hsize, Option.some.injEq, exists_eq_left',
    List.length_replicate]

/-- `10.0.2.15 5001`. -/
def numericAddress : Address where
  ip := [49, 48, 46, 48, 46, 50, 46, 49, 53]
  port := 5001
  ip_ne_nil := by decide
  ip_bytes := by decide +kernel
  port_lt := by decide

/-- `primary.example.com 5001`. -/
def namedAddress : Address where
  ip := [112, 114, 105, 109, 97, 114, 121, 46, 101, 120, 97, 109, 112, 108, 101, 46, 99, 111, 109]
  port := 5001
  ip_ne_nil := by decide
  ip_bytes := by decide +kernel
  port_lt := by decide

/-- The fields of a server before it has read its file. -/
def blankFields : ServerFields where
  infoAsPrimary := { myId := 0, myPort := 0, myIp := [] }
  infoAsSecondary :=
    { myId := 0, myPort := 0, myIp := [], primaryInfo := { port := 0, ip := [] },
      secondaryInfo := { port := 0, ip := [] } }
  isPrimary := false
  id := 0
  myIP := []
  myPort := 0
  primaryIP := []
  primaryPort := 0
  secondaryIP := []
  secondaryPort := 0

/-- The file of a primary with a numeric address. -/
theorem getBackupServersIPs_iff_numeric :
    ∃ s', getBackupServersIPs paddedHeap
        (some ((ServerTxt.ofPrimary ⟨26, by decide⟩ numericAddress).text [])) blankFields =
          some s' ∧
      (ServerTxt.ofPrimary ⟨26, by decide⟩ numericAddress).SetIn s' := by
  refine (getBackupServersIPs_iff (.ofPrimary ⟨26, by decide⟩ numericAddress) (.inl rfl)).2 ?_
  have hline : numericAddress.line.length = 14 := by decide +kernel
  have hip : numericAddress.ip.length = 9 := rfl
  have hsize : toSize (toInt 9) = 9 := toSize_toInt (by norm_num)
  simp only [ServerTxt.copies, Address.copies, List.forall_mem_cons, hline, hip, hsize]
  refine ⟨(holds_paddedHeap (by norm_num)).2 ?_, (holds_paddedHeap (by norm_num)).2 ?_,
    (holds_paddedHeap (by norm_num)).2 ?_, by simp⟩
  · simp [hline]
  · simp [hip]
  · simp [hip]

/-- The line `primary.example.com 5001` fills the 24 bytes that there are for it, and its terminator
is written behind them. -/
theorem getBackupServersIPs_named :
    ¬∀ (h : Heap) (txt : ServerTxt) (final : Bytes) (s : ServerFields),
      final = [] ∨ final = [newline] →
        ∃ s', getBackupServersIPs h (some (txt.text final)) s = some s' ∧ txt.SetIn s' := by
  intro hall
  obtain ⟨s', hs', _⟩ :=
    hall paddedHeap (.ofPrimary ⟨1, by decide⟩ namedAddress) [] blankFields (.inl rfl)
  have hcopies := (setIn_of_primary (.inl rfl) hs').2
  have hline : namedAddress.line.length = 24 := by decide +kernel
  have hholds := hcopies ⟨0, namedAddress.line.length, namedAddress.line⟩ List.mem_cons_self
  rw [hline, holds_paddedHeap (by norm_num)] at hholds
  simp [hline] at hholds

end Server
end DropboxSimulator
