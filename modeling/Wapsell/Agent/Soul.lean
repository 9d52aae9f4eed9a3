import Wapsell.Models

/-!
# The SOUL prompt

`sdk/wapsell/agent/soul.py`: the behavioral prompt of a tenant, a pure
function of its configuration and of the learning hints.

The text is copied word for word, with its blank lines, because the
prompt is compared as a text by what is proved about it. The hints go
into it as they are, without escaping; so what a tenant's buyers wrote
can stand in the behavioral prompt, which is what the theorems about the
prompt are for.

**What this does not establish.** Anything of how a model reads the
prompt, or that its rules are kept. What is proved about the text is
which parts of it quote which data.
-/

namespace Wapsell.Agent

open Py

/-- `_SKILLS_SECTION`. -/
def SKILLS_SECTION : String :=
  "## Available skills\n\n" ++
  "You have access to these skills. Call them by name with the required parameters.\n\n" ++
  "### catalog-lookup\n" ++
  "Retrieve product facts (name, price, stock) from the catalog.\n" ++
  "Parameters: `query` (product name or id).\n" ++
  "Returns: matching product list with source attribution.\n\n" ++
  "### lead-qualifier\n" ++
  "Score an inbound message for buying intent.\n" ++
  "Parameters: `message` (the customer's text).\n" ++
  "Returns: intent_score (0-100), tag (cold/warm/hot), suggested next action.\n\n" ++
  "### sales-closer\n" ++
  "Drive a conversation stage by stage toward a closed sale.\n" ++
  "Parameters: `current_stage`, `message` (customer's latest reply).\n" ++
  "Returns: next_stage, prompt for what to say, and whether the conversation is terminal.\n"

/-- `_TEMPLATE.format(…)`. -/
def template (name language tone mission rules skillsSection learningSection : String) : String :=
  "# SOUL — " ++ name ++ "\n\n" ++
  "You are the WhatsApp sales agent for **" ++ name ++ "**. Speak in " ++ language ++ ", in a\n" ++
  tone ++ " tone. You represent the brand; never reveal you are an AI unless asked.\n\n" ++
  "## Mission\n" ++ mission ++ "\n\n" ++
  "## Rules\n" ++ rules ++ "\n\n" ++
  skillsSection ++ learningSection ++ "\n\n" ++
  "## Goal protocol\n" ++
  "On every message, pursue: identify the buyer's need, present matching products\n" ++
  "from the catalog, handle objections honestly, and drive to a confirmed payment.\n" ++
  "Never invent stock or prices — look them up.\n"

/-- The learning hints between blank lines, or nothing. -/
def learningSection (learningHints : String) : String :=
  if strip learningHints ≠ "" then "\n" ++ strip learningHints ++ "\n" else ""

/-- `SoulBuilder.build`: the explicit configuration, else the tenant's, else the defaults. An
explicit configuration replaces the tenant's as a whole and is not merged with it. -/
def build (tenant : Tenant) (config : Option SoulConfig) (learningHints : String) : String :=
  let cfg := (config.or tenant.soulConfig).getD {}
  let rules := join "\n" (cfg.rules.map fun r => "- " ++ r)
  let skillsSection := if cfg.includeSkills then SKILLS_SECTION else ""
  template tenant.name cfg.language cfg.tone cfg.mission rules skillsSection
    (learningSection learningHints)

/-- The template quotes its learning section. -/
theorem infix_template {part : List Char} {learningSection : String}
    (h : part <:+: learningSection.toList) (name language tone mission rules skills : String) :
    part <:+: (template name language tone mission rules skills learningSection).toList := by
  unfold template
  iterate 5 apply infix_append_left
  exact infix_append_right _ h

/-- The SOUL quotes the hints, trimmed. -/
theorem infix_build {part : List Char} (hne : part ≠ []) (hpart : ∀ c ∈ part, isSpace c = false)
    {hints : String} (h : part <:+: hints.toList) (tenant : Tenant) (config : Option SoulConfig) :
    part <:+: (build tenant config hints).toList := by
  have hstrip := infix_strip hpart h
  refine infix_template ?_ _ _ _ _ _ _
  rw [learningSection, if_pos fun he => hne ?_]
  · exact infix_append_left _ (infix_append_right _ hstrip)
  · rw [he] at hstrip
    exact List.eq_nil_of_infix_nil hstrip

end Wapsell.Agent
