import ModGate.Body.Reader
import ModGate.Sql.Value

/-! What the callers of the body readers get: the bytes of the streaming calls, and the cached
content that `content` and `form_data` share. -/

namespace ModGate.Body

open Url Transition

def Answer.bytes : Answer → Bytes
  | .line bytes => bytes
  | .read _ bytes => bytes
  | .content _ _ => []
  | .formData _ => []

def delivered (answers : List Answer) : Bytes := answers.flatMap Answer.bytes

def Streaming (c : Call) : Prop := c = .readLine ∨ ∃ len, 1 ≤ len ∧ c = .read len

structure Stream (body : Bytes) (s : Session) : Prop where
  split : delivered s.answers ++ s.request.body = body
  ended : s.request.hasReadContent = true → s.request.body = []

lemma filter_clean {data : Bytes} (h : 0 ∉ data) : data.filter (· ≠ 0) = data := by
  rw [List.filter_eq_self]
  intro c hc
  simpa using fun h0 : c = 0 => h (h0 ▸ hc)

lemma session_concat (a : Apache) (calls : List Call) (c : Call) (body : Bytes) :
    session a (calls ++ [c]) body = call a c (session a calls body) := by
  simp [session, run]

section Streams

variable {a : Apache} {body : Bytes} {s : Session}

lemma delivered_call (a : Apache) (c : Call) (s : Session) :
    delivered (call a c s).answers = delivered s.answers ++ (perform a c s.request).1.bytes := by
  simp [delivered, call]

lemma Stream.idle (h : Stream body s) {c : Call} {answer : Answer}
    (hsame : perform a c s.request = (answer, s.request)) (hnone : answer.bytes = []) :
    Stream body (call a c s) where
  split := by
    rw [delivered_call, call, hsame, hnone, List.append_nil]
    exact h.split
  ended := by
    rw [call, hsame]
    exact h.ended

lemma Stream.next (h : Stream body s) {c : Call} {data rest : Bytes}
    (hbody : s.request.body = data ++ rest) (hdata : (perform a c s.request).1.bytes = data)
    (hrest : (perform a c s.request).2.body = rest)
    (hended : (perform a c s.request).2.hasReadContent = true → rest = []) :
    Stream body (call a c s) where
  split := by
    rw [delivered_call, hdata, call, hrest, List.append_assoc, ← hbody]
    exact h.split
  ended := by
    rw [call, hrest]
    exact hended

lemma Stream.clean (h : Stream body s) (hnul : 0 ∉ body) : 0 ∉ s.request.body := by
  intro h0
  apply hnul
  rw [← h.split]
  exact List.mem_append_right _ h0

lemma Stream.call (hok : ∀ n, a.blockFails n = false) (hnul : 0 ∉ body) {c : Call}
    (hc : Streaming c) (h : Stream body s) : Stream body (call a c s) := by
  rcases hc with rfl | ⟨len, hlen, rfl⟩
  · cases hread : s.request.hasReadContent with
    | true => exact h.idle (readLine_ended a hread) rfl
    | false =>
      obtain ⟨data, rest, n, ended, error, hbody, hline, hempty, -⟩ := readLine_spec a hread
      have hclean : 0 ∉ data := fun h0 => h.clean hnul (hbody ▸ List.mem_append_left _ h0)
      refine h.next hbody ?_ ?_ ?_
      · rw [perform, hline]
        exact filter_clean hclean
      · rw [perform, hline]
        rfl
      · rw [perform, hline]
        exact fun hended => hempty hended hok
  · cases hread : s.request.hasReadContent with
    | true => exact h.idle (read_ended a hread len) rfl
    | false =>
      obtain ⟨data, rest, n, ended, error, hbody, hdata, hempty⟩ := read_spec a hread len
      refine h.next hbody ?_ ?_ ?_
      · rw [perform, hdata]
        rfl
      · rw [perform, hdata]
        rfl
      · rw [perform, hdata]
        exact fun hended => hempty hended hok hlen

lemma stream_session (hok : ∀ n, a.blockFails n = false) (hnul : 0 ∉ body) {calls : List Call}
    (hcalls : ∀ c ∈ calls, Streaming c) : Stream body (session a calls body) := by
  have hfresh : Stream body ⟨fresh body, []⟩ := ⟨rfl, fun h => by cases h⟩
  exact run_invariant (fun c s hc h => Stream.call hok hnul hc h) (along_of_forall hcalls _) hfresh

end Streams

lemma readLine_lineEnd (a : Apache) (r : Request) :
    ∃ line, (readLine a r).1 = .line line ∧ LineEnd line (readLine a r).2.hasReadContent := by
  cases hread : r.hasReadContent with
  | true =>
    rw [readLine_ended a hread, hread]
    exact ⟨[], rfl, lineEnd_ended (by simp [crlf])⟩
  | false =>
    obtain ⟨data, rest, n, ended, error, -, hline, -, hend⟩ := readLine_spec a hread
    rw [hline]
    exact ⟨_, rfl, hend⟩

theorem streaming_reads {a : Apache} (hok : ∀ n, a.blockFails n = false) {body : Bytes}
    (hnul : 0 ∉ body) {calls : List Call} (hcalls : ∀ c ∈ calls, Streaming c) :
    delivered (session a calls body).answers <+: body ∧
      ((session a calls body).request.hasReadContent = true →
        delivered (session a calls body).answers = body) ∧
      ∀ before after, calls = before ++ .readLine :: after →
        let s := session a (before ++ [.readLine]) body
        ∃ line, s.answers.getLast? = some (.line line) ∧ LineEnd line s.request.hasReadContent := by
  have hstream := stream_session hok hnul hcalls
  refine ⟨⟨_, hstream.split⟩, ?_, ?_⟩
  · intro hread
    have hsplit := hstream.split
    rwa [hstream.ended hread, List.append_nil] at hsplit
  · intro before after _
    obtain ⟨line, hline, hend⟩ := readLine_lineEnd a (session a before body).request
    rw [session_concat]
    refine ⟨line, ?_, hend⟩
    simpa [call, perform] using hline

theorem line_after_read :
    let s := session calmApache [.read 1, .readLine, .readLine] [97, 98, 13, 10, 99]
    s.answers = [.read 1 [97], .line [98, 13, 10], .line [99]] ∧
      s.request.hasReadContent = true ∧ delivered s.answers = [97, 98, 13, 10, 99] := by
  have hall := @streaming_reads calmApache (fun _ => rfl) [97, 98, 13, 10, 99] (by decide)
    [.read 1, .readLine, .readLine] (by simp [Streaming])
  exact ⟨by decide, by decide, hall.2.1 (by decide)⟩

/-! The content that `form_data` leaves in the cache ends with the terminator it has pushed. -/

def Shared (c : Call) : Prop := c = .content false ∨ c = .formData

section Cache

variable {a : Apache} {body : Bytes} {s : Session}

lemma content_whole (hok : ∀ n, a.blockFails n = false) (r : Request) :
    (content a false r).1 = .content (r.content ++ r.body) [] ∧
      (content a false r).2.content = r.content ++ r.body ∧ (content a false r).2.body = [] ∧
      (content a false r).2.formData = r.formData := by
  obtain ⟨data, rest, n, error, hbody, hcontent, hempty⟩ := content_spec a false r
  rw [hempty hok] at hbody hcontent
  rw [List.append_nil] at hbody
  rw [hcontent, hbody]
  exact ⟨rfl, rfl, rfl, rfl⟩

structure Unparsed (body : Bytes) (r : Request) : Prop where
  table : r.formData = none
  split : r.content ++ r.body = body

structure Parsed (body : Bytes) (r : Request) : Prop where
  table : r.formData.isSome = true
  content : r.content = body ++ [0]
  rest : r.body = []

lemma content_unparsed (hok : ∀ n, a.blockFails n = false) {r : Request} (h : Unparsed body r) :
    (content a false r).1 = .content body [] ∧ (content a false r).2.content = body ∧
      Unparsed body (content a false r).2 := by
  obtain ⟨hanswer, hcontent, hrest, htable⟩ := content_whole hok r
  rw [h.split] at hanswer hcontent
  refine ⟨hanswer, hcontent, htable.trans h.table, ?_⟩
  rw [hcontent, hrest, List.append_nil]

lemma content_parsed (hok : ∀ n, a.blockFails n = false) {r : Request} (h : Parsed body r) :
    Parsed body (content a false r).2 := by
  obtain ⟨-, hcontent, hrest, htable⟩ := content_whole hok r
  refine ⟨htable ▸ h.table, ?_, hrest⟩
  rw [hcontent, h.content, h.rest, List.append_nil]

lemma formData_parsed {r : Request} (h : Parsed body r) : Parsed body (formData a r).2 := by
  obtain ⟨t, ht⟩ := Option.isSome_iff_exists.mp h.table
  simpa [formData, ht] using h

lemma formData_unparsed (hok : ∀ n, a.blockFails n = false) {contentType : Bytes}
    (htype : a.contentType = some contentType) (hform : urlencoded <:+: contentType) {r : Request}
    (h : Unparsed body r) : Parsed body (formData a r).2 := by
  obtain ⟨-, hcontent, hrest, -⟩ := content_whole hok r
  rw [h.split] at hcontent
  simp only [formData, h.table, htype, hform, if_true]
  exact ⟨rfl, congrArg (· ++ [0]) hcontent, hrest⟩

lemma run_parsed (hok : ∀ n, a.blockFails n = false) {contentType : Bytes}
    (htype : a.contentType = some contentType) (hform : urlencoded <:+: contentType)
    {calls : List Call} (hcalls : ∀ c ∈ calls, Shared c)
    (h : Parsed body s.request ∨ Unparsed body s.request ∧ .formData ∈ calls) :
    Parsed body (run (call a) calls s).request := by
  induction calls generalizing s with
  | nil =>
    rcases h with h | ⟨-, h⟩
    · exact h
    · exact absurd h List.not_mem_nil
  | cons c calls ih =>
    obtain ⟨hc, hrest⟩ := List.forall_mem_cons.mp hcalls
    apply ih hrest
    rcases hc with rfl | rfl
    · rcases h with h | ⟨h, hmem⟩
      · exact Or.inl (content_parsed hok h)
      · exact Or.inr ⟨(content_unparsed hok h).2.2, by simpa using hmem⟩
    · rcases h with h | ⟨h, -⟩
      · exact Or.inl (formData_parsed h)
      · exact Or.inl (formData_unparsed hok htype hform h)

lemma run_contents (hok : ∀ n, a.blockFails n = false) {calls : List Call}
    (hcalls : ∀ c ∈ calls, c = .content false) (h : Unparsed body s.request)
    (hanswers : ∀ bytes fed, .content bytes fed ∈ s.answers → bytes = body) :
    (calls ≠ [] → (run (call a) calls s).request.content = body) ∧
      ∀ bytes fed, .content bytes fed ∈ (run (call a) calls s).answers → bytes = body := by
  induction calls generalizing s with
  | nil => exact ⟨fun hne => absurd rfl hne, hanswers⟩
  | cons c calls ih =>
    obtain ⟨rfl, hrest⟩ := List.forall_mem_cons.mp hcalls
    obtain ⟨hanswer, hcontent, hnext⟩ := content_unparsed hok h
    have hanswers' : ∀ bytes fed,
        .content bytes fed ∈ (call a (.content false) s).answers → bytes = body := by
      intro bytes fed hmem
      rcases List.mem_append.mp hmem with hmem | hmem
      · exact hanswers bytes fed hmem
      · have heq := (List.mem_singleton.mp hmem).trans hanswer
        exact (Answer.content.injEq _ _ _ _ ▸ heq).1
    obtain ⟨hlast, hall⟩ := ih (s := call a (.content false) s) hrest hnext hanswers'
    refine ⟨fun _ => ?_, hall⟩
    cases calls with
    | nil => exact hcontent
    | cons c calls => exact hlast (List.cons_ne_nil c calls)

end Cache

lemma contentLength_eq_iff (r : Request) (n : ℕ) (h : r.content.length = n) :
    r.contentLength = n ↔ n < 2 ^ 31 := by
  unfold Request.contentLength
  rw [h, Sql.Value.bmod_eq_self_iff (n : ℤ)]
  unfold Sql.Value.Fits32
  omega

lemma contentLength_terminated {r : Request} {body : Bytes} (h : r.content = body ++ [0]) :
    r.contentLength ≠ body.length := by
  have hlen : r.content.length = body.length + 1 := by simp [h]
  intro he
  have hmod : r.contentLength % (2 ^ 32 : ℕ) = (r.content.length : ℤ) % (2 ^ 32 : ℕ) :=
    Int.bmod_emod
  rw [he, hlen] at hmod
  omega

theorem body_repeatable_iff {a : Apache} (hok : ∀ n, a.blockFails n = false) {contentType : Bytes}
    (htype : a.contentType = some contentType) (hform : urlencoded <:+: contentType)
    (body : Bytes) {calls : List Call} (hne : calls ≠ []) (hcalls : ∀ c ∈ calls, Shared c) :
    (∀ bytes fed, .content bytes fed ∈ (session a calls body).answers → bytes = body) ∧
        (session a calls body).request.contentLength = body.length ↔
      (∀ c ∈ calls, c = .content false) ∧ body.length < 2 ^ 31 := by
  have hfresh : Unparsed body (fresh body) := ⟨rfl, rfl⟩
  by_cases hmem : .formData ∈ calls
  · have hparsed : Parsed body (session a calls body).request :=
      run_parsed hok htype hform hcalls (Or.inr ⟨hfresh, hmem⟩)
    refine iff_of_false (fun h => contentLength_terminated hparsed.content h.2) fun h => ?_
    cases h.1 _ hmem
  · have hcontents : ∀ c ∈ calls, c = .content false := by
      intro c hc
      rcases hcalls c hc with h | h
      · exact h
      · exact absurd (h ▸ hc) hmem
    obtain ⟨hlast, hall⟩ := run_contents (s := ⟨fresh body, []⟩) hok hcontents hfresh (by simp)
    rw [contentLength_eq_iff (session a calls body).request body.length
      (congrArg List.length (hlast hne))]
    exact ⟨fun h => ⟨hcontents, h.2⟩, fun h => ⟨hall, h.2⟩⟩

theorem content_twice :
    let s := session calmApache [.content false, .content false] [97, 61, 49]
    s.answers = [.content [97, 61, 49] [], .content [97, 61, 49] []] ∧
      s.request.contentLength = 3 := by
  have hiff := @body_repeatable_iff calmApache (fun _ => rfl) urlencoded rfl (List.infix_refl _)
    [97, 61, 49] [.content false, .content false] (by simp) (by simp [Shared])
  exact ⟨by decide, (hiff.mpr (by simp)).2⟩

theorem content_after_formData :
    let s := session calmApache [.formData, .content false] [97, 61, 49]
    s.answers = [.formData (some [([97], [49])]), .content [97, 61, 49, 0] []] ∧
      s.request.contentLength = 4 ∧
      ¬ ∀ bytes fed, .content bytes fed ∈ s.answers → bytes = [97, 61, 49] := by
  intro s
  have hanswers : s.answers = [.formData (some [([97], [49])]), .content [97, 61, 49, 0] []] := by
    decide
  refine ⟨hanswers, by decide, fun h => ?_⟩
  cases h [97, 61, 49, 0] [] (by simp [hanswers])

end ModGate.Body
