/-!
# Powers

A power of naturals or integers is that of the core library, whatever instances of more general
powers are in scope, so the same text means the same power in every module.
-/

attribute [instance (20000), default_instance (20000)] instPowNat
