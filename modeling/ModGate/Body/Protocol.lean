import ModGate.Body.Reader

/-! The order of the calls that the readers of a body make on Apache. -/

namespace ModGate.Body

open Url Transition

def Guarded (events : List Event) : Prop :=
  ∀ before after, events = before ++ .getClientBlock :: after →
    .setupClientBlock 0 ∈ before ∧ ∃ rc, rc ≠ 0 ∧ .shouldClientBlock rc ∈ before

def FailureSticks (events : List Event) : Prop :=
  ∀ before after, events = before ++ .setupClientRead false :: after →
    .setupClientRead true ∉ after

lemma perform_events (a : Apache) {c : Call} (hc : c ≠ .formData) (r : Request) :
    (r.hasReadContent = true ∧ (perform a c r).2 = r) ∨
      ∃ n, (perform a c r).2.hasSetupClientRead = true ∧
        (perform a c r).2.events =
          r.events ++ setupEvents a r.hasSetupClientRead ++
            List.replicate (n + 1) .getClientBlock := by
  cases c with
  | content callback =>
    obtain ⟨data, rest, n, error, -, hcontent, -⟩ := content_spec a callback r
    refine Or.inr ⟨n, ?_⟩
    rw [perform, hcontent]
    exact ⟨rfl, rfl⟩
  | formData => exact absurd rfl hc
  | readLine =>
    cases h : r.hasReadContent with
    | true => exact Or.inl ⟨rfl, congrArg Prod.snd (readLine_ended a h)⟩
    | false =>
      obtain ⟨data, rest, n, ended, error, -, hline, -⟩ := readLine_spec a h
      refine Or.inr ⟨n, ?_⟩
      rw [perform, hline]
      exact ⟨rfl, rfl⟩
  | read len =>
    cases h : r.hasReadContent with
    | true => exact Or.inl ⟨rfl, congrArg Prod.snd (read_ended a h len)⟩
    | false =>
      obtain ⟨data, rest, n, ended, error, -, hread, -⟩ := read_spec a h len
      refine Or.inr ⟨0, ?_⟩
      rw [perform, hread]
      exact ⟨rfl, rfl⟩

lemma events_grow (a : Apache) {c : Call} (hc : c ≠ .formData) (r : Request) :
    ∃ more, (perform a c r).2.events = r.events ++ more := by
  rcases perform_events a hc r with ⟨-, hsame⟩ | ⟨n, -, hevents⟩
  · exact ⟨[], by rw [hsame, List.append_nil]⟩
  · exact ⟨_, hevents.trans (List.append_assoc _ _ _)⟩

lemma run_events_grow (a : Apache) {calls : List Call} (hcalls : ∀ c ∈ calls, c ≠ .formData)
    (s : Session) :
    ∃ more, (run (call a) calls s).request.events = s.request.events ++ more := by
  induction calls generalizing s with
  | nil => exact ⟨[], (List.append_nil _).symm⟩
  | cons c calls ih =>
    obtain ⟨hc, hcalls⟩ := List.forall_mem_cons.mp hcalls
    obtain ⟨first, hfirst⟩ := events_grow a hc s.request
    obtain ⟨more, hmore⟩ := ih hcalls (call a c s)
    refine ⟨first ++ more, hmore.trans ?_⟩
    rw [← List.append_assoc, ← hfirst]
    rfl

def Opened (events : List Event) : Prop :=
  .setupClientBlock 0 ∈ events ∧ ∃ rc, rc ≠ 0 ∧ .shouldClientBlock rc ∈ events

lemma Opened.mono {l m : List Event} (h : Opened l) (hsub : l ⊆ m) : Opened m := by
  obtain ⟨hsetup, rc, hrc, hshould⟩ := h
  exact ⟨hsub hsetup, rc, hrc, hsub hshould⟩

lemma Guarded.append {l m : List Event} (hl : Guarded l)
    (hm : .getClientBlock ∈ m → Opened l) : Guarded (l ++ m) := by
  intro before after h
  rcases List.append_eq_append_iff.mp h with ⟨l', rfl, hm'⟩ | ⟨m', rfl, hm'⟩
  · refine (hm ?_).mono (List.subset_append_left l l')
    rw [hm']
    simp
  · cases m' with
    | nil =>
      rw [List.append_nil] at hm
      rw [List.nil_append] at hm'
      exact hm (by simp [← hm'])
    | cons e m' =>
      rw [List.cons_append, List.cons.injEq] at hm'
      exact hl before m' (by rw [hm'.1])

structure Protocol (r : Request) : Prop where
  opened : r.hasSetupClientRead = true → Opened r.events
  guarded : Guarded r.events
  success : .setupClientRead false ∉ r.events

lemma setupEvents_success {a : Apache} (hs : a.setupClientBlock = 0) (hc : a.shouldClientBlock ≠ 0)
    (done : Bool) :
    .getClientBlock ∉ setupEvents a done ∧ .setupClientRead false ∉ setupEvents a done ∧
      (done = false → Opened (setupEvents a done)) := by
  cases done with
  | true => simp [setupEvents]
  | false => simp [setupEvents, hs, hc, Opened]

lemma protocol_perform {a : Apache} (hs : a.setupClientBlock = 0) (hcl : a.shouldClientBlock ≠ 0)
    {c : Call} (hc : c ≠ .formData) {r : Request} (h : Protocol r) :
    Protocol (perform a c r).2 := by
  rcases perform_events a hc r with ⟨-, hsame⟩ | ⟨n, -, hevents⟩
  · rwa [hsame]
  · obtain ⟨hblock, hfalse, hnew⟩ := setupEvents_success hs hcl r.hasSetupClientRead
    have hopened : Opened (r.events ++ setupEvents a r.hasSetupClientRead) := by
      cases hdone : r.hasSetupClientRead with
      | true => exact (h.opened hdone).mono (List.subset_append_left _ _)
      | false => exact (hdone ▸ hnew hdone).mono (List.subset_append_right _ _)
    constructor
    · intro _
      rw [hevents]
      exact hopened.mono (List.subset_append_left _ _)
    · rw [hevents]
      exact (h.guarded.append fun hm => absurd hm hblock).append fun _ => hopened
    · rw [hevents]
      simp [h.success, hfalse]

lemma protocol_fresh (body : Bytes) : Protocol (fresh body) where
  opened := fun h => by cases h
  guarded := fun before after h => by simp [fresh] at h
  success := by simp [fresh]

lemma protocol_session {a : Apache} (hs : a.setupClientBlock = 0) (hcl : a.shouldClientBlock ≠ 0)
    {calls : List Call} (hcalls : ∀ c ∈ calls, c ≠ .formData) (body : Bytes) :
    Protocol (session a calls body).request := by
  have hstep : ∀ (c : Call) (s : Session), c ≠ .formData → Protocol s.request →
      Protocol (call a c s).request := fun c s hc h => protocol_perform hs hcl hc h
  exact run_invariant hstep (along_of_forall hcalls _) (protocol_fresh body)

theorem client_read_protocol_iff (a : Apache) (body : Bytes) {calls : List Call}
    (hcalls : ∀ c ∈ calls, c ≠ .formData) :
    Guarded (session a calls body).request.events ∧
        FailureSticks (session a calls body).request.events ↔
      calls = [] ∨ a.setupClientBlock = 0 ∧ a.shouldClientBlock ≠ 0 := by
  constructor
  · rintro ⟨hguarded, -⟩
    cases calls with
    | nil => exact Or.inl rfl
    | cons c calls =>
      obtain ⟨hc, hcalls⟩ := List.forall_mem_cons.mp hcalls
      rcases perform_events a hc (fresh body) with ⟨h, -⟩ | ⟨n, -, hfirst⟩
      · cases h
      obtain ⟨more, hmore⟩ := run_events_grow a hcalls (call a c ⟨fresh body, []⟩)
      rw [show (call a c ⟨fresh body, []⟩).request.events =
        setupEvents a false ++ List.replicate (n + 1) .getClientBlock from hfirst] at hmore
      rw [List.replicate_succ, List.append_assoc, List.cons_append] at hmore
      obtain ⟨hsetup, rc, hrc, hshould⟩ := hguarded _ _ hmore
      by_cases hs : a.setupClientBlock = 0
      · refine Or.inr ⟨hs, ?_⟩
        have hrc' : rc = a.shouldClientBlock := by simpa [setupEvents, hs] using hshould
        rwa [← hrc']
      · simp [setupEvents, hs, Ne.symm hs] at hsetup
  · rintro (rfl | ⟨hs, hcl⟩)
    · constructor <;> intro before after h <;> simp [session, run, fresh] at h
    · have hprotocol := protocol_session hs hcl hcalls body
      refine ⟨hprotocol.guarded, fun before after h => ?_⟩
      exact absurd (by simp [h]) hprotocol.success

theorem protocol_on_calm_request :
    let events :=
      (session calmApache [.readLine, .read 2, .content false] [97, 13, 10, 98]).request.events
    Event.getClientBlock ∈ events ∧ Guarded events ∧ FailureSticks events := by
  refine ⟨by decide, ?_⟩
  exact (client_read_protocol_iff calmApache [97, 13, 10, 98] (by decide)).mpr
    (Or.inr ⟨rfl, by decide⟩)

theorem failed_setup_ignored :
    let a := { calmApache with setupClientBlock := 400 }
    let events := (session a [.read 1, .read 1] [97, 98]).request.events
    events = [.setupClientBlock 400, .setupClientRead false, .getClientBlock,
        .setupClientRead true, .getClientBlock] ∧
      ¬ Guarded events ∧ ¬ FailureSticks events := by
  intro a events
  have hevents : events = [.setupClientBlock 400, .setupClientRead false, .getClientBlock,
      .setupClientRead true, .getClientBlock] := by decide
  refine ⟨hevents, fun hguarded => ?_, fun hsticks => ?_⟩
  · have hsetup := (hguarded [.setupClientBlock 400, .setupClientRead false] _ hevents).1
    simp at hsetup
  · exact hsticks [.setupClientBlock 400] _ hevents (by decide)

end ModGate.Body
