import ModGate.Gatedb.Getopt
import Mathlib.Data.List.Infix
import Mathlib.Data.List.Nodup
import Mathlib.Data.List.Perm.Basic
import Mathlib.Data.List.TakeWhile
import Mathlib.Tactic.Common

/-! Which entry of the table of long options a typed name stands for. -/

namespace ModGate.Gatedb.Getopt

variable (current : List Char) (shortToo : Bool)

def Exact (o : LongOption) : Prop := o.name.toList = current

instance (o : LongOption) : Decidable (Exact current o) := inferInstanceAs (Decidable (_ = _))

def Abbreviated (o : LongOption) : Prop :=
  current <+: o.name.toList ∧ o.name.toList ≠ current ∧ ¬ (shortToo = true ∧ current.length = 1)

instance (o : LongOption) : Decidable (Abbreviated current shortToo o) :=
  inferInstanceAs (Decidable (_ ∧ _))

-- The entries in front of the name itself, if that is in the table.
def inFront (os : List LongOption) : List LongOption := os.takeWhile fun o => ¬ Exact current o

def abbreviated (os : List LongOption) : List LongOption :=
  os.filter fun o => Abbreviated current shortToo o

/-- The entry that is found, where `matchLong` answers its index. -/
def longOption (os : List LongOption) : Option (Option LongOption) :=
  (matchLong current shortToo os 0 none).map fun found => found.bind fun i => os[i]?

variable {current shortToo}

lemma take_eq_iff (o : LongOption) :
    o.name.toList.take current.length = current ↔ current <+: o.name.toList := by
  rw [List.prefix_iff_eq_take, eq_comm]

lemma exact_iff {o : LongOption} (h : current <+: o.name.toList) :
    o.name.length = current.length ↔ Exact current o := by
  rw [← String.length_toList]
  constructor
  · intro hlength
    exact (h.eq_of_length hlength.symm).symm
  · intro hexact
    exact congrArg List.length hexact

lemma Abbreviated.not_exact {o : LongOption} (h : Abbreviated current shortToo o) :
    ¬ Exact current o := h.2.1

/-! One entry of the table. -/

lemma matchLong_exact {o : LongOption} (h : Exact current o) (os : List LongOption) (i : ℕ)
    (found : Option ℕ) : matchLong current shortToo (o :: os) i found = some (some i) := by
  have hbegins : current <+: o.name.toList := by
    rw [h]
  rw [matchLong.eq_def]
  dsimp only
  rw [if_neg (not_not.mpr ((take_eq_iff o).mpr hbegins)),
    if_pos ((exact_iff hbegins).mpr h)]

lemma matchLong_abbreviated {o : LongOption} (h : Abbreviated current shortToo o)
    (os : List LongOption) (i : ℕ) (found : Option ℕ) :
    matchLong current shortToo (o :: os) i found =
      if found.isSome then none else matchLong current shortToo os (i + 1) (some i) := by
  obtain ⟨hbegins, hne, hletter⟩ := h
  rw [matchLong.eq_def]
  dsimp only
  rw [if_neg (not_not.mpr ((take_eq_iff o).mpr hbegins)),
    if_neg (mt (exact_iff hbegins).mp hne), if_neg (by simpa using hletter)]
  cases found with
  | none => rfl
  | some j => rfl

lemma matchLong_other {o : LongOption} (hne : ¬ Exact current o)
    (h : ¬ Abbreviated current shortToo o) (os : List LongOption) (i : ℕ) (found : Option ℕ) :
    matchLong current shortToo (o :: os) i found =
      matchLong current shortToo os (i + 1) found := by
  rw [matchLong.eq_def]
  dsimp only
  by_cases hbegins : current <+: o.name.toList
  · have hletter : (shortToo && current.length == 1) = true := by
      by_contra hnot
      exact h ⟨hbegins, hne, by simpa using hnot⟩
    rw [if_neg (not_not.mpr ((take_eq_iff o).mpr hbegins)),
      if_neg (mt (exact_iff hbegins).mp hne), if_pos hletter]
  · rw [if_pos (mt (take_eq_iff o).mp hbegins)]

/-! The whole table. -/

variable (current shortToo) in
/-- What the loop answers that has already met the abbreviation `found`. -/
def resolved (found : Option LongOption) (os : List LongOption) : Option (Option LongOption) :=
  if 2 ≤ (found.toList ++ abbreviated current shortToo (inFront current os)).length then none
  else some ((os.find? fun o => Exact current o).or
    (found.toList ++ abbreviated current shortToo (inFront current os)).head?)

lemma inFront_cons {o : LongOption} (h : ¬ Exact current o) (os : List LongOption) :
    inFront current (o :: os) = o :: inFront current os :=
  List.takeWhile_cons_of_pos (by simpa using h)

lemma find_cons {o : LongOption} (h : ¬ Exact current o) (os : List LongOption) :
    ((o :: os).find? fun o => Exact current o) = os.find? fun o => Exact current o :=
  List.find?_cons_of_neg (by simpa using h)

lemma resolved_exact {o : LongOption} (h : Exact current o) (os : List LongOption)
    (found : Option LongOption) : resolved current shortToo found (o :: os) = some (some o) := by
  have hfront : inFront current (o :: os) = [] := List.takeWhile_cons_of_neg (by simpa using h)
  have hlength : found.toList.length < 2 := by
    cases found <;> simp
  rw [resolved, hfront, abbreviated, List.filter_nil, List.append_nil, if_neg (by omega),
    List.find?_cons_of_pos (by simpa using h), Option.some_or]

lemma matchLong_resolved {all os : List LongOption} {i : ℕ} (hall : all.drop i = os)
    {found : Option ℕ} {met : Option LongOption}
    (hmet : found.map (fun j => all[j]?) = met.map some) :
    (matchLong current shortToo os i found).map (fun found => found.bind fun j => all[j]?) =
      resolved current shortToo met os := by
  induction os generalizing i found met with
  | nil =>
    cases found with
    | none =>
      cases met with
      | none => rfl
      | some o => cases hmet
    | some j =>
      cases met with
      | none => cases hmet
      | some o => exact congrArg some (Option.some.inj hmet)
  | cons o os ih =>
    have hi : all[i]? = some o := by
      rw [← List.head?_drop, hall, List.head?_cons]
    have hrest : all.drop (i + 1) = os := by
      rw [← List.tail_drop, hall, List.tail_cons]
    by_cases hexact : Exact current o
    · rw [matchLong_exact hexact, resolved_exact hexact]
      exact congrArg some hi
    · by_cases habbr : Abbreviated current shortToo o
      · have hkeep : abbreviated current shortToo (o :: inFront current os) =
            o :: abbreviated current shortToo (inFront current os) :=
          List.filter_cons_of_pos (by simpa using habbr)
        rw [matchLong_abbreviated habbr, resolved, inFront_cons hexact, find_cons hexact, hkeep]
        cases found with
        | none =>
          cases met with
          | none =>
            rw [Option.isSome_none, if_neg Bool.false_ne_true]
            have hmet' : (some i).map (fun j => all[j]?) = (some o).map some := congrArg some hi
            exact ih hrest hmet'
          | some q => cases hmet
        | some j =>
          cases met with
          | none => cases hmet
          | some q =>
            rw [Option.isSome_some, if_pos rfl, if_pos (by simp)]
            rfl
      · rw [matchLong_other hexact habbr, ih hrest hmet]
        have hskip : abbreviated current shortToo (o :: inFront current os) =
            abbreviated current shortToo (inFront current os) :=
          List.filter_cons_of_neg (by simpa using habbr)
        rw [resolved, resolved, inFront_cons hexact, find_cons hexact, hskip]

lemma longOption_eq (os : List LongOption) :
    longOption current shortToo os = resolved current shortToo none os := by
  have hmet : (none : Option ℕ).map (fun j => os[j]?) = (none : Option LongOption).map some := rfl
  exact matchLong_resolved List.drop_zero hmet

lemma resolved_no_name {os : List LongOption} (h : ∀ o ∈ os, ¬ Exact current o) :
    resolved current shortToo none os =
      if 2 ≤ (abbreviated current shortToo os).length then none
      else some (abbreviated current shortToo os).head? := by
  have hfront : inFront current os = os :=
    List.takeWhile_eq_self_iff.mpr fun o ho => by simpa using h o ho
  have hfind : (os.find? fun o => Exact current o) = none :=
    List.find?_eq_none.mpr fun o ho => by simpa using h o ho
  rw [resolved, hfront, hfind, Option.toList_none, List.nil_append, Option.none_or]

lemma resolved_name {os : List LongOption} {o : LongOption}
    (hfind : (os.find? fun o => Exact current o) = some o)
    (hfew : (abbreviated current shortToo (inFront current os)).length < 2) :
    resolved current shortToo none os = some (some o) := by
  rw [resolved, Option.toList_none, List.nil_append, if_neg (by omega), hfind, Option.some_or]

variable (current shortToo) in
lemma abbreviated_inFront_le (os : List LongOption) :
    (abbreviated current shortToo (inFront current os)).length ≤
      (abbreviated current shortToo os).length :=
  ((List.takeWhile_sublist _).filter _).length_le

lemma exact_unique {os : List LongOption} (hnames : (os.map LongOption.name).Nodup)
    {o q : LongOption} (ho : o ∈ os) (hq : q ∈ os) (heo : Exact current o) (heq : Exact current q) :
    o = q := by
  apply List.inj_on_of_nodup_map hnames ho hq
  exact String.toList_injective (heo.trans heq.symm)

lemma find_of_exact {os : List LongOption} (hnames : (os.map LongOption.name).Nodup)
    {o : LongOption} (ho : o ∈ os) (hexact : Exact current o) :
    (os.find? fun o => Exact current o) = some o := by
  cases hfind : os.find? fun o => Exact current o with
  | none => exact absurd hexact (by simpa using List.find?_eq_none.mp hfind o ho)
  | some q =>
    have hq : Exact current q := by simpa using List.find?_some hfind
    rw [exact_unique hnames ho (List.mem_of_find?_eq_some hfind) hexact hq]

lemma eq_of_perm_of_few {l l' : List LongOption} (h : l.Perm l') (hfew : l.length < 2) :
    l = l' := by
  cases l with
  | nil => exact h.nil_eq
  | cons o l =>
    cases l with
    | nil => exact List.singleton_perm.mp h
    | cons q l =>
      rw [List.length_cons, List.length_cons] at hfew
      omega

lemma longOption_perm {os os' : List LongOption} (hnames : (os.map LongOption.name).Nodup)
    (hperm : os.Perm os')
    (h : ¬ ((∃ o ∈ os, Exact current o) ∧ 2 ≤ (abbreviated current shortToo os).length)) :
    longOption current shortToo os = longOption current shortToo os' := by
  have habbr : (abbreviated current shortToo os).Perm (abbreviated current shortToo os') :=
    hperm.filter _
  have hnames' : (os'.map LongOption.name).Nodup := (hperm.map _).nodup_iff.mp hnames
  rw [longOption_eq, longOption_eq]
  by_cases hexact : ∃ o ∈ os, Exact current o
  · have hfew : (abbreviated current shortToo os).length < 2 := by
      by_contra hmany
      exact h ⟨hexact, by omega⟩
    obtain ⟨o, ho, hexact⟩ := hexact
    have hle := abbreviated_inFront_le current shortToo os
    have hle' := abbreviated_inFront_le current shortToo os'
    rw [← habbr.length_eq] at hle'
    rw [resolved_name (find_of_exact hnames ho hexact) (by omega),
      resolved_name (find_of_exact hnames' (hperm.subset ho) hexact) (by omega)]
  · push Not at hexact
    rw [resolved_no_name hexact, resolved_no_name fun o ho => hexact o (hperm.symm.subset ho),
      habbr.length_eq]
    split
    · rfl
    · next hfew => rw [eq_of_perm_of_few habbr (by rw [habbr.length_eq]; omega)]

lemma resolved_ambiguous {before after : List LongOption} {o : LongOption}
    (hnames : ((before ++ o :: after).map LongOption.name).Nodup) (hexact : Exact current o)
    (hmany : 2 ≤ (abbreviated current shortToo (before ++ o :: after)).length) :
    resolved current shortToo none (before ++ after ++ [o]) = none := by
  have hother : ∀ q ∈ before ++ after, ¬ Exact current q := by
    intro q hq hexact'
    have hnodup := (List.nodup_middle.mp hnames.of_map)
    have hqo : q ∈ before ++ o :: after := by
      rw [List.mem_append, List.mem_cons]
      exact (List.mem_append.mp hq).imp_right Or.inr
    rw [exact_unique hnames hqo (by simp) hexact' hexact] at hq
    exact (List.nodup_cons.mp hnodup).1 hq
  have hfront : inFront current (before ++ after ++ [o]) = before ++ after := by
    rw [inFront, List.takeWhile_append_of_pos fun q hq => by simpa using hother q hq,
      List.takeWhile_cons_of_neg (by simpa using hexact), List.append_nil]
  have habbr : ¬ Abbreviated current shortToo o := fun h => h.not_exact hexact
  have hsame : abbreviated current shortToo (before ++ o :: after) =
      abbreviated current shortToo (before ++ after) := by
    rw [abbreviated, abbreviated, List.filter_append, List.filter_append,
      List.filter_cons_of_neg (by simpa using habbr)]
  rw [resolved, hfront, Option.toList_none, List.nil_append, if_pos (hsame ▸ hmany)]

theorem table_order_matters_iff {os : List LongOption} (hnames : (os.map LongOption.name).Nodup) :
    (∃ os', os.Perm os' ∧ longOption current shortToo os' ≠ longOption current shortToo os) ↔
      (∃ o ∈ os, Exact current o) ∧ 2 ≤ (abbreviated current shortToo os).length := by
  constructor
  · rintro ⟨os', hperm, hdiffer⟩
    by_contra hnot
    exact hdiffer (longOption_perm hnames hperm hnot).symm
  · rintro ⟨⟨o, ho, hexact⟩, hmany⟩
    by_contra hsame
    push Not at hsame
    obtain ⟨before, after, rfl⟩ := List.append_of_mem ho
    have hfirst := hsame (o :: (before ++ after)) List.perm_middle
    have hlast := hsame (before ++ after ++ [o])
      (List.perm_middle.trans (List.perm_append_singleton o (before ++ after)).symm)
    rw [← hlast, longOption_eq, longOption_eq, resolved_exact hexact,
      resolved_ambiguous hnames hexact hmany] at hfirst
    cases hfirst

def versionOptions : List LongOption :=
  [⟨"ver", .noArgument, none, 'r'⟩, ⟨"version", .noArgument, none, 'n'⟩,
    ⟨"verbosity", .requiredArgument, none, 'v'⟩]

theorem version_order_matters : ∃ os', versionOptions.Perm os' ∧
    longOption ['v', 'e', 'r'] false os' ≠ longOption ['v', 'e', 'r'] false versionOptions :=
  (table_order_matters_iff (by decide)).mpr ⟨⟨_, List.mem_cons_self, by decide⟩, by decide⟩

end ModGate.Gatedb.Getopt
