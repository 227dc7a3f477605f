import ModGate.Database.IpTable
import Mathlib.Data.List.Infix

/-! The tool `gatelog`, which turns the offenders of an access log into rows of the table. -/

namespace ModGate.Tools

open Sql Database

inductive Regexp
  | text (s : String)
  | domain (names : List String)

namespace Regexp

-- In Ruby `$` is the end of any line of the field.
def Matches (field : String) : Regexp → Prop
  | .text s => s.toList <:+: field.toList
  | .domain names => ∃ name ∈ names, ("." ++ name).toList <:+ field.toList ∨
      ("." ++ name ++ "\n").toList <:+: field.toList

instance (field : String) : ∀ e : Regexp, Decidable (e.Matches field)
  | .text _ => inferInstanceAs (Decidable (_ <:+: _))
  | .domain names => inferInstanceAs (Decidable (∃ name ∈ names, _))

def escape (c : Char) : List Char := if c = '.' ∨ c = '/' then ['\\', c] else [c]

def source : Regexp → String
  | .text s => String.ofList (s.toList.flatMap escape)
  | .domain names => "\\.(?:" ++ "|".intercalate names ++ ")$"

end Regexp

def referrers : List (Regexp × String) :=
  [(.text "semalt", "Semalt"), (.domain ["ru", "cz"], "Russia/Czech"),
    (.domain ["cn", "au"], "China/Australia"), (.text "baidu.com", "Baidu")]

def userAgents : List (Regexp × Option String) :=
  ["A6-Indexer", "ADmantX", "Aboundex", "AboutUsBot/Harpy", "AdnormCrawler", "BacklinkCrawler",
    "Baiduspider", "CATExplorador", "CCBot", "Comodo-Webinspector-Crawler", "Domnutch-Bot",
    "Gigabot", "Gimme60", "HRCrawler", "LSSRocketCrawler", "MaxPointCrawler", "Morfeus",
    "NerdyBot", "NutchCVS", "OpenWebSpider", "PagesInventory", "SEO ROBOT", "ScreenerBot",
    "Sogou", "TurnitinBot", "WebAlta Crawler", "WebTarantula", "WikiDo", "Wotbox", "Xenu",
    "SeznamBot", "hrbot", "ia_archiver", "blog.erratasec.com", "netEstate", "niki-bot", "node.io",
    "nutch", "panscient", "rarely used", "rogerbot", "spyder", "webcollage", "integromedb",
    "ZemlyaCrawl"].map fun s => (.text s, none)

/-- The statements put the host between apostrophes as it is. -/
structure LogLine where
  host : String
  referer : String
  userAgent : String
  unquoted : '\x27' ∉ host.toList

def isSpace (c : Char) : Bool := c ∈ ['\x00', '\t', '\n', '\x0b', '\x0c', '\r', ' ']

def strip (s : String) : String :=
  String.ofList ((s.toList.dropWhile isSpace).reverse.dropWhile isSpace).reverse

-- `WHERE start_text='…'`.
def startTextWhere (ip : String) : Condition Column :=
  .compare .eq (.column .startText) (.literal (.text ip))

def offenderRow (ip note : String) (id : ℤ) : IpRow :=
  ⟨id, some ip, some ip, .null, .null, .integer 404, none, some note⟩

-- A failing statement adds no row; the result is `none` if it also raises an exception.
def blockIP (raises : Bool) (ip : String) (t : IpTable) (note : String) : Option IpTable :=
  if (select IpRow.cells (startTextWhere ip) t.rows).length > 0 then some t
  else
    match t.insert [.startText, .endText, .httpCode, .note] (offenderRow ip note) fun _ => rfl with
    | some t' => some t'
    | none => if raises then none else some t

def LogLine.referrerNotes (line : LogLine) : List String :=
  (referrers.filter fun e => e.1.Matches line.referer).map Prod.snd

def LogLine.userAgentNotes (line : LogLine) : List String :=
  (userAgents.filter fun e => e.1.Matches line.userAgent).map fun e => e.2.getD e.1.source

def processLine (raises : Bool) (t : IpTable) (line : LogLine) : Option IpTable :=
  (line.referrerNotes ++ line.userAgentNotes).foldlM (blockIP raises (strip line.host)) t

-- An exception ends the process inside its transaction, which is rolled back.
def processLog (raises : Bool) (log : List LogLine) (t : IpTable) : IpTable :=
  (log.foldlM (processLine raises) t).getD t

def LogLine.Offends (line : LogLine) : Prop :=
  (∃ e ∈ referrers, e.1.Matches line.referer) ∨ ∃ e ∈ userAgents, e.1.Matches line.userAgent

instance (line : LogLine) : Decidable line.Offends := inferInstanceAs (Decidable (_ ∨ _))

/-! A table without the column `note`. -/

lemma foldlM_fixed {α β : Type*} {f : β → α → Option β} {b : β}
    (hf : ∀ a c, f b a = some c → c = b) (l : List α) {c : β} (h : l.foldlM f b = some c) :
    c = b := by
  induction l with
  | nil => simpa using h.symm
  | cons a l ih =>
    rw [List.foldlM_cons] at h
    obtain ⟨d, hd, hl⟩ := Option.bind_eq_some_iff.mp h
    obtain rfl := hf a d hd
    exact ih hl

lemma insert_missing {t : IpTable} (h : Column.note ∉ t.columns) (ip note : String) :
    t.insert [.startText, .endText, .httpCode, .note] (offenderRow ip note) (fun _ => rfl) =
      none := by
  apply if_neg
  intro hall
  exact h (hall .note (by simp))

lemma blockIP_missing {raises : Bool} {ip note : String} {t u : IpTable}
    (h : Column.note ∉ t.columns) (hu : blockIP raises ip t note = some u) : u = t := by
  rw [blockIP, insert_missing h] at hu
  split at hu
  · exact (Option.some.inj hu).symm
  · cases raises with
    | true => simp at hu
    | false => simpa using hu.symm

lemma processLog_missing {t : IpTable} (h : Column.note ∉ t.columns) (raises : Bool)
    (log : List LogLine) : processLog raises log t = t := by
  have hline : ∀ line u, processLine raises t line = some u → u = t := fun line u hu =>
    foldlM_fixed (fun note v hv => blockIP_missing h hv) _ hu
  unfold processLog
  cases hp : log.foldlM (processLine raises) t with
  | none => rfl
  | some u => exact foldlM_fixed hline log hp

end ModGate.Tools
