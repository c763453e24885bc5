import Mathlib.Data.Int.Order.Basic
import NomoApi.Lib.Run

/-! # The cache of the audit rules

`RuleCache` (`audit/scanner.go`) keeps the compiled rules of each group for two minutes, with one
time of the last load for all groups. -/

namespace NomoApi

structure AuditRule where
  id : Int
  ruleType : String
  patterns : String
  enabled : Bool
  isGlobal : Bool
  ownerGroup : String
  deriving DecidableEq

structure CompiledRule (ρ : Type) where
  rule : AuditRule
  patterns : List String
  regexps : List ρ
  deriving DecidableEq

/-- JSON lists of strings and regular expressions, `none` for an error. -/
structure RuleCompiler (ρ : Type) where
  unmarshal : String → Option (List String)
  compile : String → Option ρ

structure RuleCache (ρ : Type) where
  rules : String → Option (List (CompiledRule ρ)) := fun _ => none
  lastLoad : Int := 0

def ruleTtl : Int := 120

def getEnabledRules (table : List AuditRule) (group : String) : List AuditRule :=
  table.filter fun r => r.enabled && (r.isGlobal || r.ownerGroup = group)

section

variable {ρ : Type} (env : RuleCompiler ρ)

/-- One rule of `getRulesForGroup`: wrong regular expressions are left out. -/
def compileRule (r : AuditRule) : CompiledRule ρ :=
  let patterns := (env.unmarshal r.patterns).getD [r.patterns]
  { rule := r
    patterns
    regexps := if r.ruleType = "regex" then patterns.filterMap env.compile else [] }

def loadRules (table : List AuditRule) (group : String) : List (CompiledRule ρ) :=
  (getEnabledRules table group).map (compileRule env)

def RuleCache.Hit (c : RuleCache ρ) (group : String) (now : Int) : Prop :=
  (c.rules group).isSome ∧ now - c.lastLoad < ruleTtl
deriving Decidable

/-- `none` when the database fails. -/
def getRulesForGroup (table : Option (List AuditRule)) (group : String) (now : Int)
    (c : RuleCache ρ) : Option (List (CompiledRule ρ)) × RuleCache ρ :=
  if c.Hit group now then (c.rules group, c)
  else
    match table with
    | none => (none, c)
    | some table =>
      (some (loadRules env table group),
        { rules := Function.update c.rules group (some (loadRules env table group))
          lastLoad := now })

structure Scan where
  group : String
  now : Int
  answers : Bool := true

/-- **The cache in use**, with the time of each group's own load. -/
structure ScanRun (ρ : Type) where
  cache : RuleCache ρ := {}
  loadedAt : String → Int := fun _ => 0
  clock : Int := 0

variable (db : Int → List AuditRule) (s : ScanRun ρ)

/-- The rules that a call applies, when the table at each time is `db`. -/
def appliedRules (e : Scan) : Option (List (CompiledRule ρ)) × RuleCache ρ :=
  getRulesForGroup env (if e.answers then some (db e.now) else none) e.group e.now s.cache

def scanStep (e : Scan) : ScanRun ρ where
  cache := (appliedRules env db s e).2
  loadedAt := if ¬ s.cache.Hit e.group e.now ∧ e.answers then
    Function.update s.loadedAt e.group e.now else s.loadedAt
  clock := e.now

def Scan.InOrder (e : Scan) : Prop := s.clock ≤ e.now

/-- **The condition**: cached rules are used only while their own load is recent. -/
def Scan.OwnLoad (e : Scan) : Prop :=
  s.cache.Hit e.group e.now → e.now - s.loadedAt e.group < ruleTtl

instance (s : ScanRun ρ) (e : Scan) : Decidable (Scan.InOrder s e ∧ Scan.OwnLoad s e) :=
  inferInstanceAs (Decidable ((_ ≤ _) ∧ (_ → _)))

/-- **The rules that a call applies were in the database** within the last `ttl`. -/
def RulesRecent (e : Scan) : Prop :=
  ∀ rules ∈ (appliedRules env db s e).1,
    ∃ t, e.now - ruleTtl < t ∧ t ≤ e.now ∧ rules = loadRules env (db t) e.group

variable {env}

/-- **The cache holds what was loaded.** -/
def ScanRun.Loaded (env : RuleCompiler ρ) (db : Int → List AuditRule) (s : ScanRun ρ) : Prop :=
  ∀ group, ∀ rules ∈ s.cache.rules group,
    rules = loadRules env (db (s.loadedAt group)) group ∧ s.loadedAt group ≤ s.clock

variable {db : Int → List AuditRule} {s : ScanRun ρ} {e : Scan}

theorem ScanRun.Loaded.step (h : s.Loaded env db) (horder : e.InOrder s) :
    (scanStep env db s e).Loaded env db := by
  have hkept : ScanRun.Loaded env db ⟨s.cache, s.loadedAt, e.now⟩ :=
    fun group rules hrules => ⟨(h group rules hrules).1, (h group rules hrules).2.trans horder⟩
  unfold scanStep appliedRules getRulesForGroup
  by_cases hhit : s.cache.Hit e.group e.now
  · simpa [hhit] using hkept
  · cases hanswers : e.answers with
    | false => simpa [hhit] using hkept
    | true =>
      intro group rules hrules
      by_cases hgroup : group = e.group
      · subst hgroup
        simpa [hhit, eq_comm] using hrules
      · simp only [hhit, if_false, if_true, Function.update_of_ne hgroup, not_false_eq_true,
          true_and] at hrules ⊢
        exact hkept group rules hrules

/-- **The rules that are applied are recent**, if those of a group are used only within the `ttl` of
their own load. -/
theorem rules_recent {events : List Scan}
    (hevents : AllSteps (fun s e => Scan.InOrder s e ∧ Scan.OwnLoad s e) (scanStep env db) {}
      events) : AllSteps (RulesRecent env db) (scanStep env db) {} events := by
  refine AllSteps.of_invariant (I := ScanRun.Loaded env db) (fun s e h hC => h.step hC.1) ?_
    (fun _ _ hrules => by cases hrules) hevents
  rintro s e h ⟨horder, hown⟩ rules hrules
  unfold appliedRules getRulesForGroup at hrules
  split at hrules
  · rename_i hhit
    obtain ⟨heq, hle⟩ := h e.group rules hrules
    have hfresh := hown hhit
    exact ⟨s.loadedAt e.group, by omega, hle.trans horder, heq⟩
  · have hnow : e.now - ruleTtl < e.now := by
      unfold ruleTtl
      omega
    refine ⟨e.now, hnow, le_rfl, ?_⟩
    cases hanswers : e.answers with
    | false => simp [hanswers] at hrules
    | true => simpa [hanswers, eq_comm] using hrules

end

def plainCompiler : RuleCompiler Unit := ⟨fun _ => none, fun _ => none⟩

def keywordAt (t : Int) : List AuditRule :=
  [⟨1, "keyword", if t ≤ 1 then "alpha" else "beta", true, true, ""⟩]

/-- Two groups, each used within the `ttl` of its own load; the last scan loads anew. -/
theorem rules_recent_two_groups :
    AllSteps (RulesRecent plainCompiler keywordAt) (scanStep plainCompiler keywordAt) {}
      [⟨"vip", 0, true⟩, ⟨"default", 50, true⟩, ⟨"vip", 119, true⟩, ⟨"default", 169, true⟩,
        ⟨"vip", 170, true⟩] :=
  rules_recent (by decide)

/-- **Rules that were replaced are used at second 210**: the load of another group at second 100
keeps those of second 0. -/
theorem rules_stale :
    let s := run (scanStep plainCompiler keywordAt) {} [⟨"vip", 0, true⟩, ⟨"default", 100, true⟩]
    (appliedRules plainCompiler keywordAt s ⟨"vip", 210, true⟩).1 =
        some (loadRules plainCompiler (keywordAt 0) "vip") ∧
      ¬ RulesRecent plainCompiler keywordAt s ⟨"vip", 210, true⟩ := by
  refine ⟨by decide, fun h => ?_⟩
  obtain ⟨t, hlt, -, heq⟩ := h (loadRules plainCompiler (keywordAt 0) "vip") (by decide)
  have ht : keywordAt t = keywordAt 2 := by
    have hnot : ¬ t ≤ 1 := by
      simp only [ruleTtl] at hlt
      omega
    simp [keywordAt, hnot]
  rw [ht] at heq
  exact absurd heq (by decide)

end NomoApi
