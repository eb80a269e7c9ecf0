import SenderAuth.Checker
import SenderAuth.Dns.Dialog

/-!
Every check is a dialog: it knows no more of a resolver than the answers that it gets, one after the other.
-/
namespace SenderAuth
open Dns

theorem Spf.isDialog_published (domain : String) : IsDialog fun r => published r domain :=
  (IsDialog.resolveTxt domain).map _

theorem Spf.isDialog_walk (limit depth : Nat) (t : Tally) (ds : List Directive) :
    IsDialog fun r => walk r limit depth t ds := by
  induction depth, t, ds using walk.induct limit with
  | case1 depth t => simpa only [walk_nil] using IsDialog.pure t
  | case2 depth t d ds ht => simpa only [walk_of_full ht] using IsDialog.pure t
  | case3 depth t d ds ht hd ih => simpa only [walk_cons_of_none ht hd] using ih
  | case4 depth t d ds ht hd ih => simpa only [walk_address ht hd] using ih
  | case5 depth t d ds ht domain hd t' ht' =>
    simpa only [walk_includes_of_full ht hd ht'] using IsDialog.pure t.countInclude
  | case6 depth t d ds ht domain hd t' ht' hdepth ih =>
    simpa only [walk_includes_of_deep ht hd ht' hdepth] using ih
  | case7 depth t d ds ht domain hd t' ht' hdepth ihIncluded ihRest =>
    simp only [walk_includes ht hd ht' hdepth]
    exact (isDialog_published domain).bind fun included => (ihIncluded included).bind ihRest

theorem Spf.isDialog_budget (domain : String) (limit : Nat) :
    IsDialog fun r => budget r domain limit := by
  refine (isDialog_published domain).bind fun found => ?_
  cases found with
  | none => exact IsDialog.pure none
  | some record => exact (isDialog_walk limit 0 {} record.directives).map _

theorem Dkim.isDialog_verdict (domain selector : String) :
    IsDialog fun r => verdict r domain selector :=
  (IsDialog.resolveTxt _).map _

theorem Dkim.isDialog_verdictOfAny (domain : String) (selectors : List String) :
    IsDialog fun r => verdictOfAny r domain selectors := by
  induction selectors with
  | nil => exact IsDialog.pure _
  | cons selector selectors ih =>
    simp only [verdictOfAny_cons]
    refine (isDialog_verdict domain selector).bind fun state => ?_
    split
    · exact IsDialog.pure _
    · exact ih

theorem Dmarc.isDialog_published (domain : String) : IsDialog fun r => published r domain :=
  (IsDialog.resolveTxt _).map _

theorem Checker.isDialog_run (c : Checker) (k : Check) : IsDialog fun r => c.run r k := by
  simp only [run_eq_function]
  cases k with
  | query name => exact (IsDialog.query name).map _
  | resolve name => exact (IsDialog.resolveTxt name).map _
  | spfRecord domain => exact (Spf.isDialog_published domain).map _
  | spfVerdict domain own => exact ((Spf.isDialog_published domain).map _).map _
  | spfSender domain sender => exact ((Spf.isDialog_published domain).map _).map _
  | spfBudget domain own => exact (Spf.isDialog_budget domain _).map _
  | spfStaysWithin domain own => exact ((Spf.isDialog_budget domain _).map _).map _
  | dkimVerdict domain selector => exact (Dkim.isDialog_verdict domain selector).map _
  | dkimVerdictOfAny domain selectors => exact (Dkim.isDialog_verdictOfAny domain selectors).map _
  | dmarcRecord domain => exact (Dmarc.isDialog_published domain).map _
  | dmarcVerdict domain => exact ((Dmarc.isDialog_published domain).map _).map _

end SenderAuth
