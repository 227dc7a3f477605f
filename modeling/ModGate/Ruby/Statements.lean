import ModGate.Ruby.Connection
import Mathlib.Data.List.Basic
import Mathlib.Data.List.Nodup

/-! Connections and the statements prepared on them, under a garbage collector that frees the
objects of a sweep in any order. -/

namespace ModGate.Ruby.Gc

open Transition

inductive Life
  | live
  | garbage
  | freed
deriving DecidableEq

structure Db where
  life : Life
  handle : Option ℕ
  dontDelete : Bool
deriving DecidableEq

-- Whether its handle is not NULL, the handle it was prepared on, and the object it keeps alive.
structure Stmt where
  life : Life
  prepared : Bool
  database : ℕ
  connection : ℕ
deriving DecidableEq

structure Memory where
  dbs : List Db
  stmts : List Stmt
  opened : ℕ
  closed : List ℕ
  misused : Bool

def emptyMemory : Memory := ⟨[], [], 0, [], false⟩

namespace Memory

def Usable (m : Memory) (h : ℕ) : Prop := h < m.opened ∧ h ∉ m.closed

instance (m : Memory) (h : ℕ) : Decidable (m.Usable h) := inferInstanceAs (Decidable (_ ∧ _))

def Busy (m : Memory) (h : ℕ) : Prop := ∃ s ∈ m.stmts, s.prepared = true ∧ s.database = h

instance (m : Memory) (h : ℕ) : Decidable (m.Busy h) :=
  inferInstanceAs (Decidable (∃ s ∈ m.stmts, _))

def use (h : ℕ) (m : Memory) : Memory := if m.Usable h then m else { m with misused := true }

def sqliteClose (h : ℕ) (m : Memory) : Bool × Memory :=
  if ¬ m.Usable h then (false, { m with misused := true })
  else if m.Busy h then (false, m)
  else (true, { m with closed := m.closed ++ [h] })

def setDb (m : Memory) (o : ℕ) (c : Db) : Memory := { m with dbs := m.dbs.set o c }

def setStmt (m : Memory) (q : ℕ) (s : Stmt) : Memory := { m with stmts := m.stmts.set q s }

end Memory

-- The deallocator of a connection; it does not look at the answer.
def release (c : Db) (m : Memory) : Memory :=
  match c.handle with
  | none => m
  | some h => if c.dontDelete = false then (m.sqliteClose h).2 else m

def closeDb (o : ℕ) (c : Db) (m : Memory) : Memory :=
  match c.handle with
  | none => m
  | some h =>
    if (m.sqliteClose h).1 then (m.sqliteClose h).2.setDb o { c with handle := none }
    else (m.sqliteClose h).2

inductive Compiled
  | error
  | empty
  | statement
deriving DecidableEq

inductive Op
  | create (handle : Option ℕ) (dontDelete : Bool)
  | init (o : ℕ) (handle : Option ℕ) (dontDelete : Bool)
  | openDb (o : ℕ) (opening : Opening)
  | close (o : ℕ)
  | prepare (o : ℕ) (compiled : Compiled)
  | stepStmt (q : ℕ)
  | finalize (o q : ℕ)
  | dropDb (o : ℕ)
  | dropStmt (q : ℕ)
  | freeDb (o : ℕ)
  | freeStmt (q : ℕ)

def prepareOn (o h : ℕ) (compiled : Compiled) (m : Memory) : Memory :=
  if ¬ m.Usable h then { m with misused := true }
  else match compiled with
    | .error => m
    | .empty => { m with stmts := m.stmts ++ [⟨.live, false, h, o⟩] }
    | .statement => { m with stmts := m.stmts ++ [⟨.live, true, h, o⟩] }

def onDb (m : Memory) (o : ℕ) (life : Life) (f : Db → Memory) : Memory :=
  match m.dbs[o]? with
  | none => m
  | some c => if c.life = life then f c else m

def onStmt (m : Memory) (q : ℕ) (life : Life) (f : Stmt → Memory) : Memory :=
  match m.stmts[q]? with
  | none => m
  | some s => if s.life = life then f s else m

def step (op : Op) (m : Memory) : Memory :=
  match op with
  | .create handle dontDelete => { m with dbs := m.dbs ++ [⟨.live, handle, dontDelete⟩] }
  | .init o handle dontDelete =>
    onDb m o .live fun c => (release c m).setDb o ⟨.live, handle, dontDelete⟩
  | .openDb o opening =>
    onDb m o .live fun c =>
      if opening.hasHandle then
        { m.setDb o { c with handle := some m.opened } with opened := m.opened + 1 }
      else m.setDb o { c with handle := none }
  | .close o => onDb m o .live fun c => closeDb o c m
  | .prepare o compiled =>
    onDb m o .live fun c =>
      match c.handle with
      | none => m
      | some h => prepareOn o h compiled m
  | .stepStmt q => onStmt m q .live fun s => if s.prepared then m.use s.database else m
  -- The argument would have to be a text and a statement at once.
  | .finalize _ _ => m
  | .dropDb o =>
    onDb m o .live fun c =>
      if ∃ s ∈ m.stmts, s.life = .live ∧ s.connection = o then m
      else m.setDb o { c with life := .garbage }
  | .dropStmt q => onStmt m q .live fun s => m.setStmt q { s with life := .garbage }
  | .freeDb o =>
    onDb m o .garbage fun c => (release c m).setDb o { c with life := .freed, handle := none }
  | .freeStmt q =>
    onStmt m q .garbage fun s =>
      (if s.prepared then m.use s.database else m).setStmt q
        { s with life := .freed, prepared := false }

lemma onDb_cases (m : Memory) (o : ℕ) (life : Life) (f : Db → Memory) :
    (∃ c, m.dbs[o]? = some c ∧ c.life = life ∧ onDb m o life f = f c) ∨
      onDb m o life f = m ∧ ∀ c, m.dbs[o]? = some c → c.life ≠ life := by
  unfold onDb
  split
  · next hnone => exact Or.inr ⟨rfl, fun c hc => by cases hnone.symm.trans hc⟩
  · next c hc =>
    split
    · next hlife => exact Or.inl ⟨c, hc, hlife, rfl⟩
    · next hlife =>
      refine Or.inr ⟨rfl, fun c' hc' => ?_⟩
      rw [hc] at hc'
      cases hc'
      exact hlife

lemma onStmt_cases (m : Memory) (q : ℕ) (life : Life) (f : Stmt → Memory) :
    onStmt m q life f = m ∨
      ∃ s, m.stmts[q]? = some s ∧ s.life = life ∧ onStmt m q life f = f s := by
  unfold onStmt
  split
  · exact Or.inl rfl
  · next s hs =>
    split
    · next hlife => exact Or.inr ⟨s, hs, hlife, rfl⟩
    · exact Or.inl rfl

def Memory.Holds (m : Memory) (o h : ℕ) : Prop := ∃ c, m.dbs[o]? = some c ∧ c.handle = some h

structure Sound (m : Memory) : Prop where
  calm : m.misused = false
  stmts : ∀ s ∈ m.stmts, s.prepared = true → m.Usable s.database
  held : ∀ o h, m.Holds o h → m.Usable h
  distinct : ∀ o o' h, m.Holds o h → m.Holds o' h → o = o'
  past : ∀ h ∈ m.closed, h < m.opened
  nodup : m.closed.Nodup

def Op.Zeroed : Op → Prop
  | .create handle _ => handle = none
  | .init _ handle _ => handle = none
  | _ => True

section Sound

variable {m m' : Memory} {o o' h h' : ℕ} {c c' : Db}

lemma holds_setDb (hh : (m.setDb o c').Holds o' h') :
    o' = o ∧ c'.handle = some h' ∨ o' ≠ o ∧ m.Holds o' h' := by
  obtain ⟨d, hd, hh⟩ := hh
  change (m.dbs.set o c')[o']? = some d at hd
  rw [List.getElem?_set] at hd
  split at hd
  · next heq =>
    split at hd
    · cases hd
      exact Or.inl ⟨heq.symm, hh⟩
    · cases hd
  · next hne => exact Or.inr ⟨fun heq => hne heq.symm, d, hd, hh⟩

lemma holds_appended (hc : c.handle = none) (hh : { m with dbs := m.dbs ++ [c] }.Holds o' h') :
    m.Holds o' h' := by
  obtain ⟨d, hd, hh⟩ := hh
  change (m.dbs ++ [c])[o']? = some d at hd
  rw [List.getElem?_append] at hd
  split at hd
  · exact ⟨d, hd, hh⟩
  · rw [List.mem_singleton.mp (List.mem_of_getElem? hd), hc] at hh
    cases hh

lemma Sound.weaken (hm : Sound m) (hcalm : m'.misused = m.misused) (hopened : m'.opened = m.opened)
    (hclosed : m'.closed = m.closed) (hholds : ∀ o h, m'.Holds o h → m.Holds o h)
    (hstmts : ∀ s ∈ m'.stmts, s.prepared = true → m.Usable s.database) : Sound m' := by
  have husable : ∀ h, m.Usable h → m'.Usable h := fun h hu => by
    rw [Memory.Usable, hopened, hclosed]
    exact hu
  refine ⟨hcalm.trans hm.calm, fun s hs hp => husable _ (hstmts s hs hp),
    fun o h hh => husable h (hm.held o h (hholds o h hh)),
    fun o o' h hh hh' => hm.distinct o o' h (hholds o h hh) (hholds o' h hh'), ?_, ?_⟩
  · rw [hopened, hclosed]
    exact hm.past
  · rw [hclosed]
    exact hm.nodup

lemma Sound.setDb (hm : Sound m) (ho : m.dbs[o]? = some c)
    (hc' : c'.handle = none ∨ c'.handle = c.handle) : Sound (m.setDb o c') := by
  refine hm.weaken rfl rfl rfl (fun o' h hh => ?_) hm.stmts
  rcases holds_setDb hh with ⟨heq, hnew⟩ | ⟨-, hold⟩
  · rcases hc' with hc' | hc'
    · rw [hnew] at hc'
      cases hc'
    · rw [heq]
      exact ⟨c, ho, hc'.symm.trans hnew⟩
  · exact hold

lemma Sound.setStmt (hm : Sound m) {q : ℕ} {s s' : Stmt} (hq : m.stmts[q]? = some s)
    (hs' : s'.prepared = true → s.prepared = true ∧ s'.database = s.database) :
    Sound (m.setStmt q s') := by
  refine hm.weaken rfl rfl rfl (fun _ _ hh => hh) fun r hr hp => ?_
  rcases List.mem_or_eq_of_mem_set hr with hr | rfl
  · exact hm.stmts r hr hp
  · obtain ⟨hp, hdatabase⟩ := hs' hp
    rw [hdatabase]
    exact hm.stmts s (List.mem_of_getElem? hq) hp

lemma Sound.used (hm : Sound m) {s : Stmt} (hs : s ∈ m.stmts) :
    (if s.prepared then m.use s.database else m) = m := by
  split
  · next hp => exact if_pos (hm.stmts s hs hp)
  · rfl

lemma Sound.closes (hm : Sound m) (ho : m.Holds o h) (hbusy : ¬ m.Busy h) (hc' : c'.handle = none) :
    Sound ({ m with closed := m.closed ++ [h] }.setDb o c') := by
  obtain ⟨hlt, hnot⟩ := hm.held o h ho
  have husable : ∀ h', m.Usable h' → h' ≠ h → h' < m.opened ∧ h' ∉ m.closed ++ [h] :=
    fun h' hu hne => ⟨hu.1, fun hmem => (List.mem_append.mp hmem).elim hu.2
      fun hmem => hne (List.mem_singleton.mp hmem)⟩
  have hholds : ∀ o' h', ({ m with closed := m.closed ++ [h] }.setDb o c').Holds o' h' →
      o' ≠ o ∧ m.Holds o' h' := by
    intro o' h' hh
    rcases holds_setDb hh with ⟨-, hnew⟩ | hold
    · rw [hc'] at hnew
      cases hnew
    · exact hold
  refine ⟨hm.calm, fun s hs hp => husable _ (hm.stmts s hs hp) ?_, fun o' h' hh => ?_,
    fun o₁ o₂ h' hh₁ hh₂ => hm.distinct o₁ o₂ h' (hholds o₁ h' hh₁).2 (hholds o₂ h' hh₂).2, ?_, ?_⟩
  · exact fun heq => hbusy ⟨s, hs, hp, heq⟩
  · obtain ⟨hne, hold⟩ := hholds o' h' hh
    refine husable h' (hm.held o' h' hold) fun heq => hne ?_
    rw [heq] at hold
    exact hm.distinct o' o h hold ho
  · intro h' hmem
    rcases List.mem_append.mp hmem with hmem | hmem
    · exact hm.past h' hmem
    · rw [List.mem_singleton.mp hmem]
      exact hlt
  · refine List.nodup_append.mpr ⟨hm.nodup, List.nodup_singleton h, fun a ha b hb heq => ?_⟩
    rw [heq, List.mem_singleton.mp hb] at ha
    exact hnot ha

lemma Sound.opens (hm : Sound m) (hc' : c'.handle = some m.opened) :
    Sound { m.setDb o c' with opened := m.opened + 1 } := by
  have husable : ∀ h, m.Usable h → h < m.opened + 1 ∧ h ∉ m.closed :=
    fun h hu => ⟨Nat.lt_succ_of_lt hu.1, hu.2⟩
  have hfresh : ∀ o', ¬ m.Holds o' m.opened :=
    fun o' hh => Nat.lt_irrefl _ (hm.held o' _ hh).1
  have hholds : ∀ o' h', { m.setDb o c' with opened := m.opened + 1 }.Holds o' h' →
      o' = o ∧ h' = m.opened ∨ m.Holds o' h' := by
    intro o' h' hh
    rcases holds_setDb (m := m) hh with ⟨ho, hh⟩ | ⟨-, hh⟩
    · rw [hc'] at hh
      cases hh
      exact Or.inl ⟨ho, rfl⟩
    · exact Or.inr hh
  refine ⟨hm.calm, fun s hs hp => husable _ (hm.stmts s hs hp), fun o' h' hh => ?_,
    fun o₁ o₂ h' hh₁ hh₂ => ?_, fun h' hmem => Nat.lt_succ_of_lt (hm.past h' hmem), hm.nodup⟩
  · rcases hholds o' h' hh with ⟨-, heq⟩ | hold
    · rw [heq]
      exact ⟨Nat.lt_succ_self _, fun hmem => Nat.lt_irrefl _ (hm.past _ hmem)⟩
    · exact husable h' (hm.held o' h' hold)
  · rcases hholds o₁ h' hh₁ with ⟨ho₁, heq₁⟩ | hold₁ <;>
      rcases hholds o₂ h' hh₂ with ⟨ho₂, heq₂⟩ | hold₂
    · rw [ho₁, ho₂]
    · exact absurd (heq₁ ▸ hold₂) (hfresh o₂)
    · exact absurd (heq₂ ▸ hold₁) (hfresh o₁)
    · exact hm.distinct o₁ o₂ h' hold₁ hold₂

lemma Sound.sqliteClose (hm : Sound m) (ho : m.Holds o h) :
    m.sqliteClose h =
      if m.Busy h then (false, m) else (true, { m with closed := m.closed ++ [h] }) :=
  if_neg (not_not.mpr (hm.held o h ho))

lemma Sound.released (hm : Sound m) (ho : m.dbs[o]? = some c) (hc' : c'.handle = none) :
    Sound ((release c m).setDb o c') := by
  unfold release
  split
  · exact hm.setDb ho (Or.inl hc')
  · next h hh =>
    split
    · rw [hm.sqliteClose ⟨c, ho, hh⟩]
      split
      · exact hm.setDb ho (Or.inl hc')
      · next hbusy => exact hm.closes ⟨c, ho, hh⟩ hbusy hc'
    · exact hm.setDb ho (Or.inl hc')

lemma Sound.closeDb (hm : Sound m) (ho : m.dbs[o]? = some c) : Sound (closeDb o c m) := by
  unfold Gc.closeDb
  split
  · exact hm
  · next h hh =>
    rw [hm.sqliteClose ⟨c, ho, hh⟩]
    by_cases hbusy : m.Busy h
    · rw [if_pos hbusy]
      exact hm
    · rw [if_neg hbusy]
      exact hm.closes ⟨c, ho, hh⟩ hbusy rfl

end Sound

lemma sound_empty : Sound emptyMemory where
  calm := rfl
  stmts := fun s hs => by cases hs
  held := fun o h ⟨c, hc, _⟩ => by cases hc
  distinct := fun o o' h ⟨c, hc, _⟩ => by cases hc
  past := fun h hh => by cases hh
  nodup := List.nodup_nil

lemma sound_onDb {m : Memory} {o : ℕ} {life : Life} {f : Db → Memory} (hm : Sound m)
    (hf : ∀ c, m.dbs[o]? = some c → Sound (f c)) : Sound (onDb m o life f) := by
  rcases onDb_cases m o life f with ⟨c, hc, -, heq⟩ | ⟨heq, -⟩ <;> rw [heq]
  · exact hf c hc
  · exact hm

lemma sound_onStmt {m : Memory} {q : ℕ} {life : Life} {f : Stmt → Memory} (hm : Sound m)
    (hf : ∀ s, m.stmts[q]? = some s → Sound (f s)) : Sound (onStmt m q life f) := by
  rcases onStmt_cases m q life f with heq | ⟨s, hs, -, heq⟩ <;> rw [heq]
  · exact hm
  · exact hf s hs

lemma Sound.appended {m : Memory} {s : Stmt} (hm : Sound m)
    (hs : s.prepared = true → m.Usable s.database) :
    Sound { m with stmts := m.stmts ++ [s] } := by
  refine hm.weaken rfl rfl rfl (fun _ _ hh => hh) fun r hr hp => ?_
  rcases List.mem_append.mp hr with hr | hr
  · exact hm.stmts r hr hp
  · rw [List.mem_singleton.mp hr] at hp ⊢
    exact hs hp

lemma Sound.prepareOn {m : Memory} {o h : ℕ} (hm : Sound m) (hu : m.Usable h)
    (compiled : Compiled) : Sound (prepareOn o h compiled m) := by
  unfold Gc.prepareOn
  rw [if_neg (not_not.mpr hu)]
  cases compiled with
  | error => exact hm
  | empty => exact hm.appended fun hp => by cases hp
  | statement => exact hm.appended fun _ => hu

lemma sound_step (op : Op) (m : Memory) (hop : op.Zeroed) (hm : Sound m) : Sound (step op m) := by
  cases op with
  | create handle dontDelete =>
    exact hm.weaken rfl rfl rfl (fun _ _ => holds_appended hop) hm.stmts
  | init o handle dontDelete => exact sound_onDb hm fun c hc => hm.released hc hop
  | openDb o opening =>
    refine sound_onDb hm fun c hc => ?_
    split
    · exact hm.opens rfl
    · exact hm.setDb hc (Or.inl rfl)
  | close o => exact sound_onDb hm fun c hc => hm.closeDb hc
  | prepare o compiled =>
    refine sound_onDb hm fun c hc => ?_
    cases hh : c.handle with
    | none => exact hm
    | some h => exact hm.prepareOn (hm.held o h ⟨c, hc, hh⟩) compiled
  | stepStmt q =>
    refine sound_onStmt hm fun s hs => ?_
    rw [hm.used (List.mem_of_getElem? hs)]
    exact hm
  | finalize o q => exact hm
  | dropDb o =>
    refine sound_onDb hm fun c hc => ?_
    split
    · exact hm
    · exact hm.setDb hc (Or.inr rfl)
  | dropStmt q => exact sound_onStmt hm fun s hs => hm.setStmt hs fun hp => ⟨hp, rfl⟩
  | freeDb o => exact sound_onDb hm fun c hc => hm.released hc rfl
  | freeStmt q =>
    refine sound_onStmt hm fun s hs => ?_
    rw [hm.used (List.mem_of_getElem? hs)]
    exact hm.setStmt hs fun hp => by cases hp

lemma sound_run {schedule : List Op} (hzeroed : ∀ op ∈ schedule, op.Zeroed) :
    Sound (run step schedule emptyMemory) :=
  run_invariant sound_step (along_of_forall hzeroed _) sound_empty

theorem no_closed_handle_used (schedule : List Op) (hzeroed : ∀ op ∈ schedule, op.Zeroed) :
    let m := run step schedule emptyMemory
    m.misused = false ∧ m.closed.Nodup ∧
      ∀ s ∈ m.stmts, s.prepared = true → s.database < m.opened ∧ s.database ∉ m.closed :=
  have hm := sound_run hzeroed
  ⟨hm.calm, hm.nodup, hm.stmts⟩

def swept : List Op :=
  [.create none false, .openDb 0 .ok, .prepare 0 .statement, .dropStmt 0, .dropDb 0, .freeDb 0,
    .freeStmt 0]

theorem swept_safely : (run step swept emptyMemory).misused = false :=
  (no_closed_handle_used swept (by simp [swept, Op.Zeroed])).1

def Memory.Kept (m : Memory) (h : ℕ) : Prop := h ∈ m.closed ∨ ∃ o, m.Holds o h

def Op.Loses (op : Op) (m : Memory) (h : ℕ) : Prop :=
  match op with
  | .openDb o _ => ∃ c, m.dbs[o]? = some c ∧ c.life = .live ∧ c.handle = some h
  | .init o _ _ =>
    ∃ c, m.dbs[o]? = some c ∧ c.life = .live ∧ c.handle = some h ∧ (c.dontDelete = true ∨ m.Busy h)
  | .freeDb o =>
    ∃ c, m.dbs[o]? = some c ∧ c.life = .garbage ∧ c.handle = some h ∧
      (c.dontDelete = true ∨ m.Busy h)
  | _ => False

section Kept

variable {m : Memory} {o o' h h' : ℕ} {c c' : Db}

lemma holds_of_setDb (hne : o ≠ o') (hh : m.Holds o' h) : (m.setDb o c').Holds o' h := by
  obtain ⟨d, hd, hh⟩ := hh
  refine ⟨d, ?_, hh⟩
  change (m.dbs.set o c')[o']? = some d
  rw [List.getElem?_set_ne hne]
  exact hd

lemma holds_set (ho : m.dbs[o]? = some c) (hh : c'.handle = some h) :
    (m.setDb o c').Holds o h := by
  refine ⟨c', ?_, hh⟩
  change (m.dbs.set o c')[o]? = some c'
  rw [List.getElem?_set_self (List.getElem?_eq_some_iff.mp ho).1]

lemma Sound.forgets (hm : Sound m) (ho : m.dbs[o]? = some c) (hnew : c'.handle ≠ some h) :
    (m.setDb o c').Kept h ↔ m.Kept h ∧ c.handle ≠ some h := by
  constructor
  · rintro (hclosed | ⟨o', hh⟩)
    · exact ⟨Or.inl hclosed, fun hheld => (hm.held o h ⟨c, ho, hheld⟩).2 hclosed⟩
    · rcases holds_setDb hh with ⟨-, hset⟩ | ⟨hne, hold⟩
      · exact absurd hset hnew
      · exact ⟨Or.inr ⟨o', hold⟩, fun hheld => hne (hm.distinct o' o h hold ⟨c, ho, hheld⟩)⟩
  · rintro ⟨hclosed | ⟨o', hold⟩, hother⟩
    · exact Or.inl hclosed
    · refine Or.inr ⟨o', holds_of_setDb ?_ hold⟩
      rintro rfl
      obtain ⟨d, hd, hh⟩ := hold
      rw [ho] at hd
      cases hd
      exact hother hh

lemma kept_setDb (ho : m.dbs[o]? = some c) (hc' : c'.handle = c.handle) :
    (m.setDb o c').Kept h ↔ m.Kept h := by
  refine or_congr_right (exists_congr fun o' => ⟨fun hh => ?_, fun hh => ?_⟩)
  · rcases holds_setDb hh with ⟨heq, hset⟩ | ⟨-, hold⟩
    · rw [heq]
      exact ⟨c, ho, hc'.symm.trans hset⟩
    · exact hold
  · by_cases heq : o = o'
    · subst heq
      obtain ⟨d, hd, hh⟩ := hh
      rw [ho] at hd
      cases hd
      exact holds_set ho (hc'.trans hh)
    · exact holds_of_setDb heq hh

lemma Sound.kept_closed (hm : Sound m) (ho : m.dbs[o]? = some c) (hh : c.handle = some h)
    (hc' : c'.handle = none) :
    ({ m with closed := m.closed ++ [h] }.setDb o c').Kept h' ↔ m.Kept h' := by
  have hnew : c'.handle ≠ some h' := fun heq => by
    rw [hc'] at heq
    cases heq
  change (h' ∈ m.closed ++ [h] ∨ ∃ o', (m.setDb o c').Holds o' h') ↔ _
  have hforgets := hm.forgets ho hnew
  rw [Memory.Kept, hh] at hforgets
  rw [List.mem_append, List.mem_singleton, or_right_comm]
  constructor
  · rintro (hkept | rfl)
    · exact (hforgets.mp hkept).1
    · exact Or.inr ⟨o, c, ho, hh⟩
  · intro hkept
    by_cases heq : h' = h
    · exact Or.inr heq
    · exact Or.inl (hforgets.mpr ⟨hkept, fun hsome => heq (Option.some.inj hsome).symm⟩)

lemma Sound.kept_released (hm : Sound m) (ho : m.dbs[o]? = some c) (hc' : c'.handle = none) :
    ((release c m).setDb o c').Kept h ↔
      m.Kept h ∧ ¬ (c.handle = some h ∧ (c.dontDelete = true ∨ m.Busy h)) := by
  have hnew : c'.handle ≠ some h := fun heq => by
    rw [hc'] at heq
    cases heq
  have hforgets := hm.forgets ho hnew
  unfold release
  split
  · next hnone => simpa [hnone] using hforgets
  · next h₀ hh =>
    split
    · next hdelete =>
      rw [hm.sqliteClose ⟨c, ho, hh⟩]
      by_cases hbusy : m.Busy h₀
      · rw [if_pos hbusy]
        refine hforgets.trans (and_congr_right fun _ => not_congr ⟨fun heq => ?_, fun heq => heq.1⟩)
        rw [hh] at heq
        cases heq
        exact ⟨hh, Or.inr hbusy⟩
      · rw [if_neg hbusy]
        refine (hm.kept_closed ho hh hc').trans (and_iff_left ?_).symm
        rintro ⟨heq, hor⟩
        rw [hh] at heq
        cases heq
        exact hor.elim (fun htrue => by simp [hdelete] at htrue) hbusy
    · next hdelete =>
      rw [Bool.not_eq_false] at hdelete
      refine hforgets.trans (and_congr_right fun _ => not_congr ⟨fun heq => ?_, fun heq => heq.1⟩)
      exact ⟨heq, Or.inl hdelete⟩

lemma kept_onDb {life : Life} {f : Db → Memory} {loses : Db → Prop}
    (hf : ∀ c, m.dbs[o]? = some c → ((f c).Kept h ↔ m.Kept h ∧ ¬ loses c)) :
    (onDb m o life f).Kept h ↔
      m.Kept h ∧ ¬ ∃ c, m.dbs[o]? = some c ∧ c.life = life ∧ loses c := by
  rcases onDb_cases m o life f with ⟨c, hc, hlife, heq⟩ | ⟨heq, hother⟩ <;> rw [heq]
  · refine (hf c hc).trans (and_congr_right fun _ => not_congr ⟨fun hl => ⟨c, hc, hlife, hl⟩, ?_⟩)
    rintro ⟨d, hd, -, hl⟩
    rw [hc] at hd
    cases hd
    exact hl
  · refine (and_iff_left ?_).symm
    rintro ⟨c, hc, hlife, -⟩
    exact hother c hc hlife

lemma kept_onDb_iff {life : Life} {f : Db → Memory}
    (hf : ∀ c, m.dbs[o]? = some c → ((f c).Kept h ↔ m.Kept h)) :
    (onDb m o life f).Kept h ↔ m.Kept h := by
  rcases onDb_cases m o life f with ⟨c, hc, -, heq⟩ | ⟨heq, -⟩ <;> rw [heq]
  exact hf c hc

lemma kept_onStmt_iff {q : ℕ} {life : Life} {f : Stmt → Memory}
    (hf : ∀ s, m.stmts[q]? = some s → ((f s).Kept h ↔ m.Kept h)) :
    (onStmt m q life f).Kept h ↔ m.Kept h := by
  rcases onStmt_cases m q life f with heq | ⟨s, hs, -, heq⟩ <;> rw [heq]
  exact hf s hs

lemma Sound.kept_closeDb (hm : Sound m) (ho : m.dbs[o]? = some c) :
    (Gc.closeDb o c m).Kept h ↔ m.Kept h := by
  unfold Gc.closeDb
  split
  · rfl
  · next h₀ hh =>
    rw [hm.sqliteClose ⟨c, ho, hh⟩]
    by_cases hbusy : m.Busy h₀
    · rw [if_pos hbusy]
      rfl
    · rw [if_neg hbusy]
      exact hm.kept_closed ho hh rfl

lemma Sound.kept_prepareOn (hu : m.Usable h') (compiled : Compiled) :
    (Gc.prepareOn o h' compiled m).Kept h ↔ m.Kept h := by
  unfold Gc.prepareOn
  rw [if_neg (not_not.mpr hu)]
  cases compiled <;> rfl

lemma kept_created (hc : c.handle = none) :
    { m with dbs := m.dbs ++ [c] }.Kept h ↔ m.Kept h := by
  refine or_congr_right (exists_congr fun o => ⟨holds_appended hc, ?_⟩)
  rintro ⟨d, hd, hh⟩
  refine ⟨d, ?_, hh⟩
  change (m.dbs ++ [c])[o]? = some d
  rw [List.getElem?_append_left (List.getElem?_eq_some_iff.mp hd).1]
  exact hd

lemma kept_step {op : Op} (hop : op.Zeroed) (hm : Sound m) (hlt : h < m.opened) :
    (step op m).Kept h ↔ m.Kept h ∧ ¬ op.Loses m h := by
  have hnever : ((step op m).Kept h ↔ m.Kept h) → ((step op m).Kept h ↔ m.Kept h ∧ ¬ False) :=
    fun hkept => hkept.trans (and_iff_left not_false).symm
  cases op with
  | create handle dontDelete => exact hnever (kept_created hop)
  | init o handle dontDelete => exact kept_onDb fun c hc => hm.kept_released hc hop
  | openDb o opening =>
    refine kept_onDb fun c hc => ?_
    split
    · exact hm.forgets hc fun heq => Nat.ne_of_gt hlt (Option.some.inj heq)
    · exact hm.forgets hc fun heq => by cases heq
  | close o => exact hnever (kept_onDb_iff fun c hc => hm.kept_closeDb hc)
  | prepare o compiled =>
    refine hnever (kept_onDb_iff fun c hc => ?_)
    cases hh : c.handle with
    | none => rfl
    | some h' => exact Sound.kept_prepareOn (hm.held o h' ⟨c, hc, hh⟩) compiled
  | stepStmt q =>
    refine hnever (kept_onStmt_iff fun s hs => ?_)
    rw [hm.used (List.mem_of_getElem? hs)]
  | finalize o q => exact hnever Iff.rfl
  | dropDb o =>
    refine hnever (kept_onDb_iff fun c hc => ?_)
    split
    · rfl
    · exact kept_setDb hc rfl
  | dropStmt q => exact hnever (kept_onStmt_iff fun s hs => Iff.rfl)
  | freeDb o => exact kept_onDb fun c hc => hm.kept_released hc rfl
  | freeStmt q =>
    refine hnever (kept_onStmt_iff fun s hs => ?_)
    rw [hm.used (List.mem_of_getElem? hs)]
    rfl

@[simp] lemma opened_use : (m.use h).opened = m.opened := by
  unfold Memory.use
  split <;> rfl

@[simp] lemma opened_sqliteClose : (m.sqliteClose h).2.opened = m.opened := by
  unfold Memory.sqliteClose
  split
  · rfl
  · split <;> rfl

@[simp] lemma opened_release : (release c m).opened = m.opened := by
  unfold release
  split
  · rfl
  · split
    · exact opened_sqliteClose
    · rfl

lemma opened_closeDb : (Gc.closeDb o c m).opened = m.opened := by
  unfold Gc.closeDb
  split
  · rfl
  · split <;> exact opened_sqliteClose

lemma opened_prepareOn {compiled : Compiled} :
    (Gc.prepareOn o h compiled m).opened = m.opened := by
  unfold Gc.prepareOn
  split
  · rfl
  · cases compiled <;> rfl

def Grows (m m' : Memory) : Prop :=
  m'.opened = m.opened ∨ m'.opened = m.opened + 1 ∧ ∃ o, m'.Holds o m.opened

lemma grows_onDb {life : Life} {f : Db → Memory}
    (hf : ∀ c, m.dbs[o]? = some c → Grows m (f c)) : Grows m (onDb m o life f) := by
  rcases onDb_cases m o life f with ⟨c, hc, -, heq⟩ | ⟨heq, -⟩ <;> rw [heq]
  · exact hf c hc
  · exact Or.inl rfl

lemma grows_onStmt {q : ℕ} {life : Life} {f : Stmt → Memory} (hf : ∀ s, Grows m (f s)) :
    Grows m (onStmt m q life f) := by
  rcases onStmt_cases m q life f with heq | ⟨s, -, -, heq⟩ <;> rw [heq]
  · exact Or.inl rfl
  · exact hf s

lemma grows_step (op : Op) (m : Memory) : Grows m (step op m) := by
  cases op with
  | create handle dontDelete => exact Or.inl rfl
  | init o handle dontDelete => exact grows_onDb fun c hc => Or.inl opened_release
  | openDb o opening =>
    refine grows_onDb fun c hc => ?_
    split
    · exact Or.inr ⟨rfl, o, holds_set hc rfl⟩
    · exact Or.inl rfl
  | close o => exact grows_onDb fun c hc => Or.inl opened_closeDb
  | prepare o compiled =>
    refine grows_onDb fun c hc => Or.inl ?_
    cases c.handle with
    | none => rfl
    | some h => exact opened_prepareOn
  | stepStmt q =>
    refine grows_onStmt fun s => Or.inl ?_
    split
    · exact opened_use
    · rfl
  | finalize o q => exact Or.inl rfl
  | dropDb o =>
    refine grows_onDb fun c hc => Or.inl ?_
    split <;> rfl
  | dropStmt q => exact grows_onStmt fun s => Or.inl rfl
  | freeDb o => exact grows_onDb fun c hc => Or.inl opened_release
  | freeStmt q =>
    refine grows_onStmt fun s => Or.inl ?_
    cases s.prepared with
    | true => exact opened_use
    | false => rfl

end Kept

def Memory.AllKept (m : Memory) : Prop := ∀ h < m.opened, m.Kept h

lemma Op.Loses.held {op : Op} {m : Memory} {h : ℕ} (hl : op.Loses m h) : ∃ o, m.Holds o h := by
  cases op with
  | init o handle dontDelete =>
    obtain ⟨c, hc, -, hh, -⟩ := hl
    exact ⟨o, c, hc, hh⟩
  | openDb o opening =>
    obtain ⟨c, hc, -, hh⟩ := hl
    exact ⟨o, c, hc, hh⟩
  | freeDb o =>
    obtain ⟨c, hc, -, hh, -⟩ := hl
    exact ⟨o, c, hc, hh⟩
  | create | close | prepare | stepStmt | finalize | dropDb | dropStmt | freeStmt => cases hl

lemma allKept_step {op : Op} {m : Memory} (hop : op.Zeroed) (hm : Sound m) :
    (step op m).AllKept ↔ m.AllKept ∧ ∀ h, ¬ op.Loses m h := by
  have hgrows := grows_step op m
  constructor
  · intro hkept
    have hold : ∀ h < m.opened, m.Kept h ∧ ¬ op.Loses m h := fun h hlt =>
      (kept_step hop hm hlt).mp (hkept h (by rcases hgrows with heq | ⟨heq, -⟩ <;> omega))
    refine ⟨fun h hlt => (hold h hlt).1, fun h hl => ?_⟩
    obtain ⟨o, hh⟩ := hl.held
    exact (hold h (hm.held o h hh).1).2 hl
  · rintro ⟨hkept, hnone⟩ h hlt
    by_cases hbefore : h < m.opened
    · exact (kept_step hop hm hbefore).mpr ⟨hkept h hbefore, hnone h⟩
    · rcases hgrows with heq | ⟨heq, hh⟩
      · omega
      · have hlast : h = m.opened := by omega
        rw [hlast]
        exact Or.inr hh

lemma allKept_run {schedule : List Op} {m : Memory} (hzeroed : ∀ op ∈ schedule, op.Zeroed)
    (hm : Sound m) :
    (run step schedule m).AllKept ↔
      m.AllKept ∧ Along step (fun op m => ∀ h, ¬ op.Loses m h) schedule m := by
  induction schedule generalizing m with
  | nil => exact (and_iff_left trivial).symm
  | cons op ops ih =>
    obtain ⟨hop, hops⟩ := List.forall_mem_cons.mp hzeroed
    rw [Along, ← and_assoc, ← allKept_step hop hm]
    exact ih hops (sound_step op m hop hm)

theorem nothing_leaks_iff (schedule : List Op) (hzeroed : ∀ op ∈ schedule, op.Zeroed) :
    (∀ h < (run step schedule emptyMemory).opened, h ∈ (run step schedule emptyMemory).closed ∨
      ∃ o, (run step schedule emptyMemory).Holds o h) ↔
    Along step (fun op m => ∀ h, ¬ op.Loses m h) schedule emptyMemory :=
  (allKept_run hzeroed sound_empty).trans (and_iff_right fun _ hlt => by cases hlt)

theorem swept_leaks : ¬ ∀ h < (run step swept emptyMemory).opened,
    h ∈ (run step swept emptyMemory).closed ∨ ∃ o, (run step swept emptyMemory).Holds o h := by
  rw [nothing_leaks_iff swept (by simp [swept, Op.Zeroed])]
  rintro ⟨-, -, -, -, -, hfree, -⟩
  exact hfree 0 ⟨⟨.garbage, some 0, false⟩, rfl, rfl, rfl, Or.inr (by decide)⟩

end ModGate.Ruby.Gc
