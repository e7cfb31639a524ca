/-!
# Terminal styles

A styled piece of text is the text between a terminal style code and the
reset code. Each piece carries its own codes, so pieces can be joined in any
order.
-/

namespace KernelLaunch

/-- Text between a terminal style code and the reset code. -/
def styled (code text : String) : String := "\x1b[" ++ code ++ "m" ++ text ++ "\x1b[0m"

end KernelLaunch
