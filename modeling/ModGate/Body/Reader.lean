import ModGate.Transition.Schedule
import ModGate.Url.Query
import Mathlib.Data.List.Infix

/-! How the class `Request` reads the body of a request through Apache's client blocks, and the
calls it makes on the way. -/

namespace ModGate.Body

open Url

inductive Event
  | setupClientBlock (rc : ℤ)
  | shouldClientBlock (rc : ℤ)
  | setupClientRead (ok : Bool)
  | getClientBlock
deriving DecidableEq

/-- What Apache answers for one request: the two outcomes of the setup, the number of bytes that
are ready at each call of `get_client_block`, and which of these calls fail. -/
structure Apache where
  setupClientBlock : ℤ
  shouldClientBlock : ℤ
  ready : ℕ → ℕ
  blockFails : ℕ → Bool
  contentType : Option Bytes
  bytesSent : ℤ
  maxContentLength : ℤ

/-- The field `body` is what the client has still to send. -/
structure Request where
  body : Bytes
  blocks : ℕ
  content : Bytes
  hasReadContent : Bool
  hasSetupClientRead : Bool
  error : String
  formData : Option ArgTable
  events : List Event

def fresh (body : Bytes) : Request := ⟨body, 0, [], false, false, "", none, []⟩

def Request.log (r : Request) (e : Event) : Request := { r with events := r.events ++ [e] }

def Request.contentLength (r : Request) : ℤ := (r.content.length : ℤ).bmod (2 ^ 32)

variable (a : Apache)

def setupClientRead (r : Request) : Bool × Request :=
  if r.hasSetupClientRead then (true, r.log (.setupClientRead true))
  else
    let r := { r with hasSetupClientRead := true }.log (.setupClientBlock a.setupClientBlock)
    if a.setupClientBlock ≠ 0 then
      let r := { r with error := "Request::form_data(): setup_client_block failed." }
      (false, r.log (.setupClientRead false))
    else
      let r := r.log (.shouldClientBlock a.shouldClientBlock)
      if a.shouldClientBlock = 0 then
        let r := { r with error := "Request::form_data(): should_client_block failed." }
        (false, r.log (.setupClientRead false))
      else (true, r.log (.setupClientRead true))

def blockSize (r : Request) (len : ℕ) : ℕ :=
  if a.blockFails r.blocks then 0 else min len (max 1 (a.ready r.blocks))

def getClientBlock (len : ℕ) (r : Request) : Bytes × Request :=
  let n := blockSize a r len
  (r.body.take n, { r with body := r.body.drop n, blocks := r.blocks + 1 }.log .getClientBlock)

-- The loop of `content`, with the bytes that it feeds to a callback.
def readBlocks (callback : Bool) : ℕ → Request → Bytes × Request
  | 0, r => ([], r)
  | fuel + 1, r =>
    let (data, r) := getClientBlock a 4095 r
    if data = [] then ([], r)
    else if callback then
      let (fed, r) := readBlocks callback fuel r
      (data ++ fed, r)
    else readBlocks callback fuel { r with content := r.content ++ data }

inductive Answer
  | content (bytes fed : Bytes)
  | formData (table : Option ArgTable)
  | line (bytes : Bytes)
  | read (n : ℤ) (bytes : Bytes)
deriving DecidableEq

def checkLength (r : Request) : Request :=
  if a.maxContentLength ≠ -1 ∧ a.bytesSent > a.maxContentLength then
    { r with
      error := "Request::form_data(): exceded bytes_sent: " ++ toString a.maxContentLength }
  else r

-- The test of `has_read_content` has no effect: its body lacks the word `return`. The results of
-- the length check and of the setup are not used either.
def content (callback : Bool) (r : Request) : Answer × Request :=
  let r := (setupClientRead a (checkLength a r)).2
  let (fed, r) := readBlocks a callback (r.body.length + 1) r
  let r := { r with hasReadContent := true }
  (.content r.content fed, r)

-- The loop of `read_line`. A NUL byte adds nothing to the line, and the character before a sole
-- line feed is none.
def readBytes : ℕ → Bytes → Request → Bytes × Request
  | 0, line, r => (line, r)
  | fuel + 1, line, r =>
    let (data, r) := getClientBlock a 1 r
    match data with
    | [] => (line, { r with hasReadContent := true })
    | c :: _ =>
      let line := if c = 0 then line else line ++ [c]
      if c = 10 ∧ line.dropLast.getLast? = some 13 then (line, r) else readBytes fuel line r

def readLine (r : Request) : Answer × Request :=
  if r.hasReadContent then (.line [], r)
  else
    let r := (setupClientRead a r).2
    let (line, r) := readBytes a (r.body.length + 1) [] r
    (.line line, r)

def read (len : ℕ) (r : Request) : Answer × Request :=
  if r.hasReadContent then (.read (-1) [], r)
  else
    let r := (setupClientRead a r).2
    let n : ℤ := if a.blockFails r.blocks then -1 else (getClientBlock a len r).1.length
    let (data, r) := getClientBlock a len r
    (.read n data, if n ≤ 0 then { r with hasReadContent := true } else r)

def ascii (s : String) : Bytes := s.toList.map fun c => UInt8.ofNat c.toNat

def urlencoded : Bytes := ascii "application/x-www-form-urlencoded"

def formData (r : Request) : Answer × Request :=
  match r.formData with
  | some t => (.formData (some t), r)
  | none =>
    match a.contentType with
    | none => (.formData none, r)
    | some contentType =>
      if urlencoded <:+: contentType then
        let r := (content a false r).2
        let r := { r with content := r.content ++ [0] }
        let t := parseQueryString r.content []
        (.formData (some t), { r with formData := some t })
      else
        let t := mergeArg [] (ascii "content-type") contentType
        (.formData (some t), { r with
          error := "Request::form_data(): unsupported content type"
          formData := some t })

inductive Call
  | content (callback : Bool)
  | formData
  | readLine
  | read (len : ℕ)
deriving DecidableEq

def perform : Call → Request → Answer × Request
  | .content callback => content a callback
  | .formData => formData a
  | .readLine => readLine a
  | .read len => read a len

structure Session where
  request : Request
  answers : List Answer

def call (c : Call) (s : Session) : Session :=
  ⟨(perform a c s.request).2, s.answers ++ [(perform a c s.request).1]⟩

def session (calls : List Call) (body : Bytes) : Session :=
  Transition.run (call a) calls ⟨fresh body, []⟩

def calmApache : Apache :=
  ⟨0, 1, fun _ => 4, fun _ => false, some urlencoded, 0, 20 * 1024 * 1024⟩

/-! One specification for each operation: what it takes from the body, what it changes, and the
calls it adds. -/

variable {a}

def setupEvents (a : Apache) (done : Bool) : List Event :=
  if done then [.setupClientRead true]
  else if a.setupClientBlock ≠ 0 then
    [.setupClientBlock a.setupClientBlock, .setupClientRead false]
  else
    [.setupClientBlock 0, .shouldClientBlock a.shouldClientBlock,
      .setupClientRead (decide (a.shouldClientBlock ≠ 0))]

def Request.opened (a : Apache) (r : Request) (error : String) : Request :=
  { r with
    hasSetupClientRead := true
    error := error
    events := r.events ++ setupEvents a r.hasSetupClientRead }

lemma setupClientRead_spec (a : Apache) (r : Request) :
    ∃ error, (setupClientRead a r).2 = r.opened a error := by
  obtain ⟨body, blocks, content, hasRead, hasSetup, error, form, events⟩ := r
  cases hasSetup with
  | true => exact ⟨error, rfl⟩
  | false =>
    by_cases hs : a.setupClientBlock = 0
    · by_cases hc : a.shouldClientBlock = 0
      · exact ⟨_, by simp [setupClientRead, setupEvents, Request.log, Request.opened, hs, hc]; rfl⟩
      · exact ⟨error, by simp [setupClientRead, setupEvents, Request.log, Request.opened, hs, hc]⟩
    · exact ⟨_, by simp [setupClientRead, setupEvents, Request.log, Request.opened, hs]; rfl⟩

lemma blockSize_pos (h : ∀ n, a.blockFails n = false) (r : Request) {len : ℕ} (hlen : 1 ≤ len) :
    1 ≤ blockSize a r len := by
  simp only [blockSize, h, Bool.false_eq_true, if_false]
  omega

lemma blockSize_le (a : Apache) (r : Request) (len : ℕ) : blockSize a r len ≤ len := by
  unfold blockSize
  split
  · exact Nat.zero_le len
  · exact min_le_left _ _

def Request.advance (r : Request) (rest : Bytes) (n : ℕ) : Request :=
  { r with
    body := rest
    blocks := r.blocks + n
    events := r.events ++ List.replicate n .getClientBlock }

lemma advance_advance (r : Request) (rest rest' : Bytes) (m n : ℕ) :
    (r.advance rest m).advance rest' n = r.advance rest' (m + n) := by
  simp [Request.advance, Nat.add_assoc]

lemma getClientBlock_spec (a : Apache) (len : ℕ) (r : Request) :
    ∃ data rest, r.body = data ++ rest ∧ getClientBlock a len r = (data, r.advance rest 1) ∧
      data.length ≤ len ∧ (data = [] → (∀ n, a.blockFails n = false) → 1 ≤ len → rest = []) := by
  refine ⟨r.body.take (blockSize a r len), r.body.drop (blockSize a r len),
    (List.take_append_drop _ _).symm, rfl, ?_, ?_⟩
  · have hle := blockSize_le a r len
    rw [List.length_take]
    omega
  · intro hdata hok hlen
    have hpos := blockSize_pos hok r hlen
    rcases List.take_eq_nil_iff.mp hdata with h | h
    · omega
    · rw [h, List.drop_nil]

lemma readBlocks_spec (a : Apache) (callback : Bool) {fuel : ℕ} {r : Request}
    (h : r.body.length < fuel) :
    ∃ data rest n, r.body = data ++ rest ∧
      readBlocks a callback fuel r = (if callback then data else [],
        { r.advance rest (n + 1) with
          content := r.content ++ if callback then [] else data }) ∧
      ((∀ n, a.blockFails n = false) → rest = []) := by
  induction fuel generalizing r with
  | zero => omega
  | succ fuel ih =>
    obtain ⟨data, rest, hbody, hblock, -, hend⟩ := getClientBlock_spec a 4095 r
    rw [readBlocks, hblock]
    by_cases hdata : data = []
    · subst hdata
      refine ⟨[], rest, 0, hbody, ?_, fun hok => hend rfl hok (by omega)⟩
      cases callback <;> simp [Request.advance]
    · have hshort : rest.length < fuel := by
        have hpos := List.length_pos_iff.mpr hdata
        rw [hbody, List.length_append] at h
        omega
      simp only [hdata, if_false]
      cases callback with
      | true =>
        obtain ⟨data', rest', n, hrest, hread, hempty⟩ := ih (r := r.advance rest 1) hshort
        refine ⟨data ++ data', rest', n + 1, ?_, ?_, hempty⟩
        · rw [hbody, List.append_assoc, ← hrest]
          rfl
        · simp only [if_true] at hread ⊢
          rw [hread, advance_advance, Nat.add_comm 1]
          rfl
      | false =>
        obtain ⟨data', rest', n, hrest, hread, hempty⟩ :=
          ih (r := { r.advance rest 1 with content := r.content ++ data }) hshort
        refine ⟨data ++ data', rest', n + 1, ?_, ?_, hempty⟩
        · rw [hbody, List.append_assoc, ← hrest]
          rfl
        · simp only [Bool.false_eq_true, if_false] at hread ⊢
          rw [← List.append_assoc, Nat.add_comm (n + 1), ← advance_advance r rest]
          exact hread

def crlf : Bytes := [13, 10]

lemma crlf_concat {line : Bytes} {c : UInt8} (h : ¬ crlf <:+: line)
    (hc : ¬ (c = 10 ∧ line.getLast? = some 13)) : ¬ crlf <:+: line ++ [c] := by
  rw [List.infix_concat_iff, not_or]
  refine ⟨?_, h⟩
  rintro ⟨l, hl⟩
  have hsplit : (l ++ [13]) ++ [10] = line ++ [c] := by simpa [crlf] using hl
  obtain ⟨rfl, h10⟩ := List.append_inj' hsplit rfl
  exact hc ⟨(List.singleton_inj.mp h10).symm, by simp⟩

/-- A line ends with its only CR LF, or it has none and the input is at its end. -/
def LineEnd (line : Bytes) (ended : Bool) : Prop :=
  (ended = false → ∃ l, line = l ++ crlf ∧ ¬ crlf <:+: l ++ [13]) ∧
    (ended = true → ¬ crlf <:+: line)

lemma lineEnd_stopped {l : Bytes} (h : ¬ crlf <:+: l ++ [13]) : LineEnd (l ++ crlf) false := by
  constructor
  · exact fun _ => ⟨l, rfl, h⟩
  · intro hended
    cases hended

lemma lineEnd_ended {line : Bytes} (h : ¬ crlf <:+: line) : LineEnd line true := by
  constructor
  · intro hstopped
    cases hstopped
  · exact fun _ => h

lemma byte_stops_iff (line : Bytes) (c : UInt8) :
    c = 10 ∧ (if c = 0 then line else line ++ [c]).dropLast.getLast? = some 13 ↔
      c = 10 ∧ line.getLast? = some 13 := by
  refine and_congr_right ?_
  rintro rfl
  simp

lemma byte_goes_on {line : Bytes} {c : UInt8} (h : ¬ crlf <:+: line)
    (hc : ¬ (c = 10 ∧ line.getLast? = some 13)) :
    ¬ crlf <:+: if c = 0 then line else line ++ [c] := by
  split
  · exact h
  · exact crlf_concat h hc

lemma append_filter_cons (line data : Bytes) (c : UInt8) :
    line ++ (c :: data).filter (· ≠ 0) =
      (if c = 0 then line else line ++ [c]) ++ data.filter (· ≠ 0) := by
  by_cases hc : c = 0
  · simp [hc]
  · simp [hc]

lemma readBytes_spec (a : Apache) {fuel : ℕ} {r : Request} (h : r.body.length < fuel)
    {line : Bytes} (hline : ¬ crlf <:+: line) :
    ∃ data rest n ended, r.body = data ++ rest ∧
      readBytes a fuel line r = (line ++ data.filter (· ≠ 0),
        { r.advance rest (n + 1) with hasReadContent := r.hasReadContent || ended }) ∧
      (ended = true → (∀ n, a.blockFails n = false) → rest = []) ∧
      LineEnd (line ++ data.filter (· ≠ 0)) ended := by
  induction fuel generalizing r line with
  | zero => omega
  | succ fuel ih =>
    obtain ⟨data, rest, hbody, hblock, hlen, hend⟩ := getClientBlock_spec a 1 r
    rw [readBytes, hblock]
    cases data with
    | nil =>
      refine ⟨[], rest, 0, true, hbody, ?_, fun _ hok => hend rfl hok le_rfl, ?_⟩
      · simp [Request.advance]
      · simpa using lineEnd_ended hline
    | cons c data =>
      obtain rfl : data = [] := by simpa using hlen
      simp only [byte_stops_iff]
      by_cases hstop : c = 10 ∧ line.getLast? = some 13
      · obtain ⟨rfl, hlast⟩ := hstop
        obtain ⟨l, rfl⟩ := List.getLast?_eq_some_iff.mp hlast
        refine ⟨[10], rest, 0, false, hbody, ?_, ?_, ?_⟩
        · simp [Request.advance]
        · intro hended
          cases hended
        · simpa [crlf] using lineEnd_stopped hline
      · have hshort : (r.advance rest 1).body.length < fuel := by
          rw [hbody, List.length_append, List.length_singleton] at h
          change rest.length < fuel
          omega
        obtain ⟨data', rest', n, ended, hrest, hread, hempty, hlineEnd⟩ :=
          ih hshort (byte_goes_on hline hstop)
        refine ⟨c :: data', rest', n + 1, ended, ?_, ?_, hempty, ?_⟩
        · rw [hbody, show rest = data' ++ rest' from hrest]
          rfl
        · rw [if_neg hstop, hread, advance_advance, Nat.add_comm 1, append_filter_cons]
          rfl
        · rwa [append_filter_cons]

lemma checkLength_spec (a : Apache) (r : Request) :
    ∃ error, checkLength a r = { r with error := error } := by
  unfold checkLength
  split
  · exact ⟨_, rfl⟩
  · exact ⟨r.error, rfl⟩

lemma content_spec (a : Apache) (callback : Bool) (r : Request) :
    ∃ data rest n error, r.body = data ++ rest ∧
      content a callback r =
        (.content (r.content ++ if callback then [] else data) (if callback then data else []),
          { (r.opened a error).advance rest (n + 1) with
            content := r.content ++ if callback then [] else data
            hasReadContent := true }) ∧
      ((∀ n, a.blockFails n = false) → rest = []) := by
  obtain ⟨e, hcheck⟩ := checkLength_spec a r
  obtain ⟨error, hsetup⟩ := setupClientRead_spec a (checkLength a r)
  have hopened : (setupClientRead a (checkLength a r)).2 = r.opened a error := by
    rw [hsetup, hcheck]
    rfl
  obtain ⟨data, rest, n, hbody, hread, hempty⟩ :=
    readBlocks_spec a callback (Nat.lt_add_one (r.opened a error).body.length)
  refine ⟨data, rest, n, error, hbody, ?_, hempty⟩
  rw [content, hopened, hread]
  rfl

lemma readLine_ended (a : Apache) {r : Request} (h : r.hasReadContent = true) :
    readLine a r = (.line [], r) := by
  simp [readLine, h]

lemma read_ended (a : Apache) {r : Request} (h : r.hasReadContent = true) (len : ℕ) :
    read a len r = (.read (-1) [], r) := by
  simp [read, h]

lemma readLine_spec (a : Apache) {r : Request} (h : r.hasReadContent = false) :
    ∃ data rest n ended error, r.body = data ++ rest ∧
      readLine a r = (.line (data.filter (· ≠ 0)),
        { (r.opened a error).advance rest (n + 1) with hasReadContent := ended }) ∧
      (ended = true → (∀ n, a.blockFails n = false) → rest = []) ∧
      LineEnd (data.filter (· ≠ 0)) ended := by
  obtain ⟨error, hopened⟩ := setupClientRead_spec a r
  have hnone : ¬ crlf <:+: ([] : Bytes) := by simp [crlf]
  obtain ⟨data, rest, n, ended, hbody, hread, hempty, hline⟩ :=
    readBytes_spec a (Nat.lt_add_one (r.opened a error).body.length) hnone
  refine ⟨data, rest, n, ended, error, hbody, ?_, hempty, hline⟩
  simp only [readLine, h, hopened, Bool.false_eq_true, if_false]
  rw [hread]
  simp [Request.opened, h]

lemma read_spec (a : Apache) {r : Request} (h : r.hasReadContent = false) (len : ℕ) :
    ∃ data rest n ended error, r.body = data ++ rest ∧
      read a len r = (.read n data,
        { (r.opened a error).advance rest 1 with hasReadContent := ended }) ∧
      (ended = true → (∀ n, a.blockFails n = false) → 1 ≤ len → rest = []) := by
  obtain ⟨error, hopened⟩ := setupClientRead_spec a r
  obtain ⟨data, rest, hbody, hblock, -, hend⟩ := getClientBlock_spec a len (r.opened a error)
  let n : ℤ := if a.blockFails r.blocks then -1 else data.length
  refine ⟨data, rest, n, decide (n ≤ 0), error, hbody, ?_, ?_⟩
  · have hn : (if a.blockFails (r.opened a error).blocks then (-1 : ℤ) else data.length) = n := rfl
    simp only [read, h, hopened, hblock, Bool.false_eq_true, if_false]
    rw [hn]
    by_cases hle : n ≤ 0
    · simp [hle]
    · simp [hle, Request.opened, Request.advance, h]
  · intro hended hok hlen
    have hzero : data = [] := by simpa [n, hok] using hended
    exact hend hzero hok hlen

end ModGate.Body
