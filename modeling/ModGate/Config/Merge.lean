import ModGate.Config.Directives

/-! The merge of a chain of directory records, in any grouping that keeps their order. -/

namespace ModGate.Config

open Containers

inductive Grouping
  | single (c : GateDirConfig)
  | merge (current new : Grouping)

namespace Grouping

-- From the outermost record to the innermost.
def chain : Grouping → List GateDirConfig
  | .single c => [c]
  | .merge current new => current.chain ++ new.chain

def merged : Grouping → GateDirConfig
  | .single c => c
  | .merge current new => mergeDirConf current.merged new.merged

lemma get_merged (g : Grouping) (key : String) :
    g.merged.options.get key = lastSome (fun c => c.options.get key) g.chain := by
  induction g with
  | single c => rfl
  | merge current new ihc ihn =>
    rw [merged, mergeDirConf, Options.get_merge, ihc, ihn, chain, lastSome_append]

lemma set_of_mem_merged {g : Grouping} {e : String × String} (he : e ∈ g.merged.options.entries) :
    ∃ c ∈ g.chain, c.options.get e.1 = some e.2 := by
  have hget : g.merged.options.get e.1 = some e.2 :=
    Table.get_of_mem foldCase g.merged.options.distinct he
  rw [get_merged] at hget
  exact lastSome_mem hget

theorem merged_innermost (g : Grouping) :
    Table.Distinct foldCase g.merged.options.entries ∧
      (∀ key, g.merged.options.get key = lastSome (fun c => c.options.get key) g.chain) ∧
      ∀ e ∈ g.merged.options.entries, ∃ c ∈ g.chain, (c.options.get e.1).isSome := by
  refine ⟨g.merged.options.distinct, g.get_merged, ?_⟩
  intro e he
  obtain ⟨c, hc, hget⟩ := set_of_mem_merged he
  exact ⟨c, hc, by rw [hget, Option.isSome_some]⟩

end Grouping

end ModGate.Config
