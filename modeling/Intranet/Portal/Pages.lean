/-!
# Pages

The page on which people sign in.
-/

namespace Intranet

/-- The page on which people sign in. -/
def loginPage : String :=
  "<!DOCTYPE html>
<html lang=\"en\">
<head><meta charset=\"utf-8\"><title>Sign in to the portal</title></head>
<body>
<h1>Sign in</h1>
<form id=\"login\">
  <label>Login <input name=\"login\" autocomplete=\"username\" required></label>
  <label>Password <input name=\"password\" type=\"password\" " ++
    "autocomplete=\"current-password\" required></label>
  <button type=\"submit\">Sign in</button>
  <p id=\"error\" role=\"alert\"></p>
</form>
<script>
document.getElementById('login').addEventListener('submit', async (event) => \x7b
  event.preventDefault();
  const form = new FormData(event.target);
  const res = await fetch('/auth/login', \x7b
    method: 'POST',
    headers: \x7b 'Content-Type': 'application/json' \x7d,
    body: JSON.stringify(\x7b login: form.get('login'), password: form.get('password') \x7d),
  \x7d);
  if (res.ok) \x7b window.location.href = '/'; return; \x7d
  const body = await res.json().catch(() => null);
  document.getElementById('error').textContent = body?.error?.message ?? 'Sign in failed';
\x7d);
</script>
</body>
</html>
"

end Intranet
