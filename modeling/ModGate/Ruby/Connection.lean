import ModGate.Transition.Schedule
import Mathlib.Logic.Function.Basic

/-! The Ruby class `DB` and the SQLite handles it opens, borrows and closes. The flag `dont_delete`
and, after `initialize`, the handle itself hold whatever the allocated memory held: the assignments
meant for the flag are comparisons. -/

namespace ModGate.Ruby

open Transition

-- The handles that `DB#open` gets from SQLite, in their order, and all other pointers.
inductive Handle
  | opened (n : ℕ)
  | external (n : ℕ)
deriving DecidableEq

abbrev ObjectId := ℕ

structure Connection where
  handle : Option Handle
  dontDelete : Bool
deriving DecidableEq

inductive Slot
  | unborn
  | live (c : Connection)
  | dead
deriving DecidableEq

inductive Closer
  | close
  | deallocator
deriving DecidableEq

structure Closed where
  handle : Handle
  object : ObjectId
  closer : Closer
deriving DecidableEq

structure Heap where
  slots : ObjectId → Slot
  openers : List ObjectId
  lent : List (ObjectId × Handle)
  closed : List Closed

def emptyHeap : Heap := ⟨fun _ => .unborn, [], [], []⟩

-- An open that fails hands out a handle all the same, unless there is no memory for one.
inductive Opening
  | ok
  | error
  | noMemory
deriving DecidableEq

def Opening.hasHandle : Opening → Bool
  | .ok => true
  | .error => true
  | .noMemory => false

inductive Op
  | init (o : ObjectId) (fields : Connection) (closes : Bool)
  | openDb (o : ObjectId) (opening : Opening)
  | close (o : ObjectId) (closes : Bool)
  | make (o : ObjectId) (handle : Option Handle) (dontDelete : Bool)
  | dealloc (o : ObjectId) (closes : Bool)

def deallocator (o : ObjectId) (c : Connection) (closes : Bool) (closed : List Closed) :
    List Closed :=
  match c.handle with
  | none => closed
  | some h => if c.dontDelete = false ∧ closes then closed ++ [⟨h, o, .deallocator⟩] else closed

def Heap.Exists (w : Heap) : Handle → Prop
  | .opened n => n < w.openers.length
  | .external _ => True

instance (w : Heap) : ∀ h, Decidable (w.Exists h)
  | .opened n => inferInstanceAs (Decidable (n < w.openers.length))
  | .external _ => isTrue trivial

def Heap.put (w : Heap) (o : ObjectId) (s : Slot) : Heap :=
  { w with slots := Function.update w.slots o s }

def step (op : Op) (w : Heap) : Heap :=
  match op with
  | .init o fields closes =>
    match w.slots o with
    | .unborn => w.put o (.live fields)
    | .live c => { w.put o (.live fields) with closed := deallocator o c closes w.closed }
    | .dead => w
  | .openDb o opening =>
    match w.slots o with
    | .live c =>
      if opening.hasHandle then
        { w.put o (.live { c with handle := some (.opened w.openers.length) }) with
          openers := w.openers ++ [o] }
      else w.put o (.live { c with handle := none })
    | _ => w
  | .close o closes =>
    match w.slots o with
    | .live c =>
      match c.handle with
      | none => w
      | some h =>
        if closes then
          { w.put o (.live { c with handle := none }) with
            closed := w.closed ++ [⟨h, o, .close⟩] }
        else w
    | _ => w
  | .make o handle dontDelete =>
    match w.slots o, handle with
    | .unborn, none => w.put o (.live ⟨none, dontDelete⟩)
    | .unborn, some h =>
      if w.Exists h then
        { w.put o (.live ⟨some h, dontDelete⟩) with lent := w.lent ++ [(o, h)] }
      else w
    | _, _ => w
  | .dealloc o closes =>
    match w.slots o with
    | .live c => { w.put o .dead with closed := deallocator o c closes w.closed }
    | _ => w

def closingsOf (h : Handle) (closed : List Closed) : ℕ := closed.countP fun c => c.handle = h

def Heap.closings (w : Heap) (h : Handle) : ℕ := closingsOf h w.closed

def Heap.held (w : Heap) (o : ObjectId) : Option Handle :=
  match w.slots o with
  | .live c => c.handle
  | _ => none

/-- Each handle of `DB#open` has been closed once, or not yet and its opener holds it; only its
opener closes it; a deallocator closes no handle that was lent to its object. -/
structure ClosedOnce (w : Heap) : Prop where
  once : ∀ n o, w.openers[n]? = some o →
    w.closings (.opened n) = 1 ∨ w.closings (.opened n) = 0 ∧ w.held o = some (.opened n)
  own : ∀ c ∈ w.closed, ∀ n, c.handle = .opened n → w.openers[n]? = some c.object
  lent : ∀ o h, (o, h) ∈ w.lent → ⟨h, o, .deallocator⟩ ∉ w.closed

def Heap.Owns (w : Heap) (o : ObjectId) : Handle → Prop
  | .opened n => w.openers[n]? = some o ∧ w.closings (.opened n) = 0
  | .external _ => False

instance (w : Heap) (o : ObjectId) : ∀ h, Decidable (w.Owns o h)
  | .opened _ => inferInstanceAs (Decidable (_ ∧ _))
  | .external _ => isFalse id

def Heap.Releases (w : Heap) (o : ObjectId) (c : Connection) (closes : Bool) : Prop :=
  ∀ h ∈ c.handle, if w.Owns o h then c.dontDelete = false ∧ closes = true
    else c.dontDelete = true ∨ closes = false

instance (w : Heap) (o : ObjectId) (c : Connection) (closes : Bool) :
    Decidable (w.Releases o c closes) := inferInstanceAs (Decidable (∀ h ∈ c.handle, _))

def Heap.ReleasesSlot (w : Heap) (o : ObjectId) (closes : Bool) : Slot → Prop
  | .live c => w.Releases o c closes
  | _ => True

instance (w : Heap) (o : ObjectId) (closes : Bool) : ∀ s, Decidable (w.ReleasesSlot o closes s)
  | .live c => inferInstanceAs (Decidable (w.Releases o c closes))
  | .unborn => isTrue trivial
  | .dead => isTrue trivial

def Handle.External : Handle → Prop
  | .external _ => True
  | .opened _ => False

instance : ∀ h : Handle, Decidable h.External
  | .external _ => isTrue trivial
  | .opened _ => isFalse id

def Proper (op : Op) (w : Heap) : Prop :=
  match op with
  | .init o _ closes => w.ReleasesSlot o closes (w.slots o)
  | .openDb o _ => ∀ h ∈ w.held o, ¬ w.Owns o h
  | .close o closes => closes = true → ∀ h ∈ w.held o, w.Owns o h ∨ h.External
  | .make _ _ _ => True
  | .dealloc o closes => w.ReleasesSlot o closes (w.slots o)

instance : ∀ op w, Decidable (Proper op w)
  | .init _ _ _, _ => inferInstanceAs (Decidable (Heap.ReleasesSlot _ _ _ _))
  | .openDb o _, w => inferInstanceAs (Decidable (∀ h ∈ w.held o, ¬ w.Owns o h))
  | .close o closes, w =>
    inferInstanceAs (Decidable (closes = true → ∀ h ∈ w.held o, w.Owns o h ∨ h.External))
  | .make _ _ _, _ => isTrue trivial
  | .dealloc _ _, _ => inferInstanceAs (Decidable (Heap.ReleasesSlot _ _ _ _))

structure Owned (w : Heap) : Prop where
  closedOnce : ClosedOnce w
  born : ∀ (n : ℕ) o, w.openers[n]? = some o → w.slots o ≠ .unborn
  closerBorn : ∀ c ∈ w.closed, w.slots c.object ≠ .unborn
  lentOther : ∀ o h, (o, h) ∈ w.lent → w.slots o ≠ .unborn ∧
    ∀ n, h = .opened n → n < w.openers.length ∧ w.openers[n]? ≠ some o

lemma owned_empty : Owned emptyHeap where
  closedOnce := ⟨by simp [emptyHeap], by simp [emptyHeap], by simp [emptyHeap]⟩
  born := by simp [emptyHeap]
  closerBorn := by simp [emptyHeap]
  lentOther := by simp [emptyHeap]

section Slots

variable {w : Heap} {o p : ObjectId}

lemma held_live {c : Connection} (h : w.slots o = .live c) : w.held o = c.handle := by
  simp [Heap.held, h]

lemma held_put_ne (s : Slot) (h : p ≠ o) : (w.put o s).held p = w.held p := by
  simp [Heap.held, Heap.put, h]

lemma slots_put_ne (s : Slot) (h : p ≠ o) : (w.put o s).slots p = w.slots p := by
  simp [Heap.put, h]

lemma slots_put (s : Slot) : (w.put o s).slots o = s := by
  simp [Heap.put]

lemma put_born {s : Slot} (hs : s ≠ .unborn) (h : w.slots p ≠ .unborn) :
    (w.put o s).slots p ≠ .unborn := by
  by_cases hp : p = o
  · rw [hp, slots_put]
    exact hs
  · rwa [slots_put_ne s hp]

lemma Owned.owns (h : Owned w) {n : ℕ} (hopener : w.openers[n]? = some o)
    (hnot : ∀ h ∈ w.held o, ¬ w.Owns o h) : w.closings (.opened n) = 1 := by
  rcases h.closedOnce.once n o hopener with hone | ⟨hzero, hheld⟩
  · exact hone
  · exact absurd ⟨hopener, hzero⟩ (hnot _ hheld)

lemma Owned.unopened (h : Owned w) : w.closings (.opened w.openers.length) = 0 := by
  rw [Heap.closings, closingsOf, List.countP_eq_zero]
  intro c hc
  simp only [decide_eq_true_eq]
  intro hn
  have hopener := h.closedOnce.own c hc _ hn
  rw [List.getElem?_eq_none (Nat.le_refl _)] at hopener
  cases hopener

lemma owns_opened {h : Handle} (howns : w.Owns o h) :
    ∃ n, h = .opened n ∧ w.openers[n]? = some o ∧ w.closings (.opened n) = 0 := by
  cases h with
  | opened n => exact ⟨n, rfl, howns⟩
  | external n => exact howns.elim

def Adds (w : Heap) (o : ObjectId) (closed : List Closed) : Prop :=
  closed = w.closed ∨ ∃ h k, closed = w.closed ++ [⟨h, o, k⟩] ∧
    (w.Owns o h ∨ h.External ∧ k = .close)

lemma Adds.mem {closed : List Closed} (hadds : Adds w o closed) {c : Closed} (hc : c ∈ closed) :
    c ∈ w.closed ∨
      c.object = o ∧ (w.Owns o c.handle ∨ c.handle.External ∧ c.closer = .close) := by
  rcases hadds with rfl | ⟨h, k, rfl, hh⟩
  · exact Or.inl hc
  · rcases List.mem_append.mp hc with hc | hc
    · exact Or.inl hc
    · obtain rfl := List.mem_singleton.mp hc
      exact Or.inr ⟨rfl, hh⟩

lemma closingsOf_concat (closed : List Closed) (h h' : Handle) (k : Closer) :
    closingsOf h' (closed ++ [⟨h, o, k⟩]) = closingsOf h' closed + if h = h' then 1 else 0 := by
  simp [closingsOf, List.countP_append, List.countP_singleton]

lemma Owned.replace (hw : Owned w) {s : Slot} (hs : s ≠ .unborn) {closed : List Closed}
    (hadds : Adds w o closed)
    (hdone : ∀ n : ℕ, w.openers[n]? = some o → closingsOf (.opened n) closed = 1) :
    Owned { w.put o s with closed := closed } := by
  refine ⟨⟨?_, ?_, ?_⟩, ?_, ?_, ?_⟩
  · intro n p hp
    by_cases hpo : p = o
    · subst hpo
      exact Or.inl (hdone n hp)
    · have hsame : closingsOf (.opened n) closed = w.closings (.opened n) := by
        rcases hadds with rfl | ⟨h, k, rfl, hh⟩
        · rfl
        · rw [closingsOf_concat, if_neg, Nat.add_zero]
          · rfl
          · rintro rfl
            rcases hh with hown | ⟨hext, -⟩
            · exact hpo (Option.some.inj (hp.symm.trans hown.1))
            · exact hext
      rcases hw.closedOnce.once n p hp with hone | ⟨hzero, hheld⟩
      · exact Or.inl (hsame.trans hone)
      · exact Or.inr ⟨hsame.trans hzero, (held_put_ne s hpo).trans hheld⟩
  · intro c hc n hn
    rcases hadds.mem hc with hc | ⟨rfl, hh⟩
    · exact hw.closedOnce.own c hc n hn
    · rw [hn] at hh
      rcases hh with hown | ⟨hext, -⟩
      · exact hown.1
      · exact hext.elim
  · intro p h hlent hmem
    rcases hadds.mem hmem with hmem | ⟨rfl, hown | ⟨-, hk⟩⟩
    · exact hw.closedOnce.lent p h hlent hmem
    · obtain ⟨n, rfl, hopener, -⟩ := owns_opened hown
      exact ((hw.lentOther _ _ hlent).2 n rfl).2 hopener
    · cases hk
  · intro n p hp
    exact put_born hs (hw.born n p hp)
  · intro c hc
    rcases hadds.mem hc with hc | ⟨rfl, -⟩
    · exact put_born hs (hw.closerBorn c hc)
    · exact (slots_put s).symm ▸ hs
  · intro p h hlent
    exact ⟨put_born hs (hw.lentOther p h hlent).1, (hw.lentOther p h hlent).2⟩

lemma Owned.closes (hw : Owned w) {c : Connection} {h : Handle} (hheld : w.held o = some h)
    (hmay : w.Owns o h ∨ h.External) :
    Owned { w.put o (.live { c with handle := none }) with
      closed := w.closed ++ [⟨h, o, .close⟩] } := by
  refine hw.replace (by simp) (Or.inr ⟨h, .close, rfl, ?_⟩) fun n hn => ?_
  · exact hmay.imp_right fun hext => ⟨hext, rfl⟩
  · rw [closingsOf_concat]
    rcases hw.closedOnce.once n o hn with hone | ⟨hzero, hheld'⟩
    · rw [show closingsOf _ w.closed = 1 from hone, if_neg]
      rintro rfl
      rcases hmay with hown | hext
      · have hzero := hown.2
        omega
      · exact hext
    · rw [show closingsOf _ w.closed = 0 from hzero,
        if_pos (Option.some.inj (hheld.symm.trans hheld'))]

lemma Owned.released (hw : Owned w) {c : Connection} (hlive : w.slots o = .live c)
    {closes : Bool} (hrel : w.Releases o c closes) :
    Adds w o (deallocator o c closes w.closed) ∧
      ∀ n : ℕ, w.openers[n]? = some o →
        closingsOf (.opened n) (deallocator o c closes w.closed) = 1 := by
  have hheld := held_live hlive
  cases hc : c.handle with
  | none =>
    rw [hc] at hheld
    simp only [deallocator, hc]
    exact ⟨Or.inl rfl, fun n hn => hw.owns hn (by simp [hheld])⟩
  | some h =>
    rw [hc] at hheld
    have hcase := hrel h hc
    by_cases hown : w.Owns o h
    · rw [if_pos hown] at hcase
      obtain ⟨m, rfl, hopener, hzero⟩ := owns_opened hown
      simp only [deallocator, hc, hcase, and_self, if_true]
      refine ⟨Or.inr ⟨_, _, rfl, Or.inl hown⟩, fun n hn => ?_⟩
      rw [closingsOf_concat]
      by_cases hmn : m = n
      · subst hmn
        rw [if_pos rfl, show closingsOf _ w.closed = 0 from hzero]
      · rw [if_neg (by simpa using hmn), Nat.add_zero]
        rcases hw.closedOnce.once n o hn with hone | ⟨-, hheld'⟩
        · exact hone
        · rw [hheld] at hheld'
          simp only [Option.some.injEq, Handle.opened.injEq] at hheld'
          exact absurd hheld' hmn
    · rw [if_neg hown] at hcase
      have hkeep : deallocator o c closes w.closed = w.closed := by
        simp only [deallocator, hc]
        apply if_neg
        rintro ⟨hdelete, hcloses⟩
        rcases hcase with h | h
        · rw [hdelete] at h
          cases h
        · rw [hcloses] at h
          cases h
      rw [hkeep]
      exact ⟨Or.inl rfl, fun n hn => hw.owns hn (by simpa [hheld] using hown)⟩

lemma Owned.freed (hw : Owned w) {c : Connection} (hlive : w.slots o = .live c) {closes : Bool}
    (hrel : w.ReleasesSlot o closes (w.slots o)) {s : Slot} (hs : s ≠ .unborn) :
    Owned { w.put o s with closed := deallocator o c closes w.closed } := by
  rw [hlive] at hrel
  obtain ⟨hadds, hdone⟩ := hw.released hlive hrel
  exact hw.replace hs hadds hdone

lemma Owned.unborn_opener (hw : Owned w) (h : w.slots o = .unborn) (n : ℕ) :
    w.openers[n]? ≠ some o := fun hn => hw.born n o hn h

lemma Owned.allocated (hw : Owned w) (h : w.slots o = .unborn) (c : Connection) :
    Owned (w.put o (.live c)) :=
  hw.replace (by simp) (Or.inl rfl) fun n hn => absurd hn (hw.unborn_opener h n)

lemma getElem?_concat {openers : List ObjectId} {n : ℕ} {p : ObjectId}
    (h : (openers ++ [o])[n]? = some p) :
    openers[n]? = some p ∨ n = openers.length ∧ p = o := by
  by_cases hn : n < openers.length
  · rw [List.getElem?_append_left hn] at h
    exact Or.inl h
  · rw [List.getElem?_append_right (by omega), List.getElem?_singleton] at h
    split at h
    · next hzero => exact Or.inr ⟨by omega, (Option.some.inj h).symm⟩
    · cases h

lemma Owned.opened (hw : Owned w) {c : Connection}
    (hdone : ∀ n : ℕ, w.openers[n]? = some o → w.closings (.opened n) = 1) :
    Owned { w.put o (.live { c with handle := some (.opened w.openers.length) }) with
      openers := w.openers ++ [o] } := by
  have hs : Slot.live { c with handle := some (.opened w.openers.length) } ≠ .unborn := by simp
  refine ⟨⟨?_, ?_, ?_⟩, ?_, ?_, ?_⟩
  · intro n p hp
    rcases getElem?_concat hp with hold | ⟨rfl, rfl⟩
    · by_cases hpo : p = o
      · subst hpo
        exact Or.inl (hdone n hold)
      · rcases hw.closedOnce.once n p hold with hone | ⟨hzero, hheld⟩
        · exact Or.inl hone
        · exact Or.inr ⟨hzero, (held_put_ne _ hpo).trans hheld⟩
    · exact Or.inr ⟨hw.unopened, by simp [Heap.held, Heap.put]⟩
  · intro e he n hn
    have hopener := hw.closedOnce.own e he n hn
    obtain ⟨hlt, -⟩ := List.getElem?_eq_some_iff.mp hopener
    exact (List.getElem?_append_left hlt).trans hopener
  · exact hw.closedOnce.lent
  · intro n p hp
    rcases getElem?_concat hp with hp | ⟨-, rfl⟩
    · exact put_born hs (hw.born n p hp)
    · exact (slots_put _).symm ▸ hs
  · intro e he
    exact put_born hs (hw.closerBorn e he)
  · intro p h hlent
    obtain ⟨hborn, hother⟩ := hw.lentOther p h hlent
    refine ⟨put_born hs hborn, fun n hn => ?_⟩
    obtain ⟨hlt, hne⟩ := hother n hn
    refine ⟨?_, ?_⟩
    · simp only [List.length_append, List.length_singleton]
      omega
    · rwa [List.getElem?_append_left hlt]

lemma Owned.made (hw : Owned w) (hunborn : w.slots o = .unborn) {h : Handle} (hexists : w.Exists h)
    (dontDelete : Bool) :
    Owned { w.put o (.live ⟨some h, dontDelete⟩) with lent := w.lent ++ [(o, h)] } := by
  obtain ⟨⟨honce, hown, hlent⟩, hborn, hcloser, hother⟩ :=
    hw.allocated hunborn ⟨some h, dontDelete⟩
  refine ⟨⟨honce, hown, ?_⟩, hborn, hcloser, ?_⟩
  · intro p h' hmem
    rcases List.mem_append.mp hmem with hmem | hmem
    · exact hlent p h' hmem
    · obtain ⟨rfl, rfl⟩ : p = o ∧ h' = h := by simpa using hmem
      exact fun hc => hw.closerBorn _ hc hunborn
  · intro p h' hmem
    rcases List.mem_append.mp hmem with hmem | hmem
    · exact hother p h' hmem
    · obtain ⟨rfl, rfl⟩ : p = o ∧ h' = h := by simpa using hmem
      refine ⟨by simp [Heap.put], ?_⟩
      rintro n rfl
      exact ⟨hexists, hw.unborn_opener hunborn n⟩

lemma Owned.step (hw : Owned w) {op : Op} (hop : Proper op w) : Owned (step op w) := by
  cases op with
  | init o fields closes =>
    cases hslot : w.slots o with
    | unborn =>
      simp only [Ruby.step, hslot]
      exact hw.allocated hslot fields
    | live c =>
      simp only [Ruby.step, hslot]
      exact hw.freed hslot hop (by simp)
    | dead => simpa only [Ruby.step, hslot] using hw
  | openDb o opening =>
    cases hslot : w.slots o with
    | unborn => simpa only [Ruby.step, hslot] using hw
    | live c =>
      have hdone : ∀ n : ℕ, w.openers[n]? = some o → w.closings (.opened n) = 1 :=
        fun n hn => hw.owns hn hop
      simp only [Ruby.step, hslot]
      split
      · exact hw.opened hdone
      · exact hw.replace (by simp) (Or.inl rfl) hdone
    | dead => simpa only [Ruby.step, hslot] using hw
  | close o closes =>
    cases hslot : w.slots o with
    | unborn => simpa only [Ruby.step, hslot] using hw
    | live c =>
      cases hc : c.handle with
      | none => simpa only [Ruby.step, hslot, hc] using hw
      | some h =>
        simp only [Ruby.step, hslot, hc]
        split
        · next hcloses =>
          have hheld : w.held o = some h := (held_live hslot).trans hc
          exact hw.closes hheld (hop hcloses h hheld)
        · exact hw
    | dead => simpa only [Ruby.step, hslot] using hw
  | make o handle dontDelete =>
    cases hslot : w.slots o with
    | unborn =>
      cases handle with
      | none =>
        simp only [Ruby.step, hslot]
        exact hw.allocated hslot ⟨none, dontDelete⟩
      | some h =>
        simp only [Ruby.step, hslot]
        split
        · next hexists => exact hw.made hslot hexists dontDelete
        · exact hw
    | live c => simpa only [Ruby.step, hslot] using hw
    | dead => simpa only [Ruby.step, hslot] using hw
  | dealloc o closes =>
    cases hslot : w.slots o with
    | unborn => simpa only [Ruby.step, hslot] using hw
    | live c =>
      simp only [Ruby.step, hslot]
      exact hw.freed hslot hop (by simp)
    | dead => simpa only [Ruby.step, hslot] using hw

end Slots

theorem handles_closed_once {ops : List Op} (h : Along step Proper ops emptyHeap) :
    ∀ before after, ops = before ++ after → ClosedOnce (run step before emptyHeap) := by
  rintro before after rfl
  have howned : Owned (run step before emptyHeap) :=
    run_invariant (fun _ _ hop hw => hw.step hop) (along_before h) owned_empty
  exact howned.closedOnce

def tidyRun : List Op :=
  [.init 0 ⟨some (.external 9), false⟩ true, .openDb 0 .error, .close 0 false, .close 0 true,
    .openDb 0 .ok, .make 1 (some (.opened 1)) true, .dealloc 1 true, .dealloc 0 true]

theorem tidyRun_closed_once :
    (run step tidyRun emptyHeap).closed = [⟨.opened 0, 0, .close⟩, ⟨.opened 1, 0, .deallocator⟩] ∧
      ClosedOnce (run step tidyRun emptyHeap) := by
  refine ⟨by decide, ?_⟩
  exact @handles_closed_once tidyRun (by decide) tidyRun [] (List.append_nil _).symm

theorem flag_never_assigned :
    let leaked := run step [.init 0 ⟨none, true⟩ true, .openDb 0 .ok, .dealloc 0 true] emptyHeap
    let borrowed := run step [.make 0 (some (.external 7)) false, .dealloc 0 true] emptyHeap
    (leaked.openers = [0] ∧ leaked.closed = [] ∧ ¬ ClosedOnce leaked) ∧
      borrowed.lent = [(0, .external 7)] ∧ borrowed.closed = [⟨.external 7, 0, .deallocator⟩] ∧
      ¬ ClosedOnce borrowed := by
  intro leaked borrowed
  have hclosed : borrowed.closed = [⟨.external 7, 0, .deallocator⟩] := by decide
  refine ⟨⟨by decide, by decide, fun h => ?_⟩, by decide, hclosed, fun h => ?_⟩
  · rcases h.once 0 0 (by decide) with hone | ⟨-, hheld⟩
    · exact absurd hone (by decide)
    · exact absurd hheld (by decide)
  · exact h.lent 0 (.external 7) (by decide) (by simp [hclosed])

end ModGate.Ruby
